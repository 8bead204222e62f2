import Mathlib.Data.List.Pairwise
import CubeQuery.Proofs.Plan.Compile
import CubeQuery.Proofs.Plan.Leftover

/-!
# When matching fails

A drilldown takes cuts of its own hierarchy only, so drilldowns on different hierarchies do not touch
what the others find (`Claims.filter_isWithin`). Each failure of a match then depends on the requested
cuts alone, and without such a cause the match succeeds (`matchCuts_fails_exactly`).
-/

namespace CubeQuery.Plan

/-! ## Causes of failure -/

def drilledLevels (drilldowns : List Drilldown) : List (LevelRef × Nat) :=
  drilldowns.filterMap fun d =>
    match d.target with
    | .level ref _ depth => some (ref, depth)
    | .namedSet _ => none

/-- Two of the cuts are anchored on one level. -/
def Conflicting (cuts : List Cut) : Prop :=
  ∃ a b level, [a, b].Sublist cuts ∧ a.isNamedSet = false ∧ b.isNamedSet = false ∧
    a.level? = some level ∧ b.level? = some level

/-- No cut lies on the level, and the first one above it is a range. -/
def StartsWithRange (cuts : List Cut) (level : LevelRef × Nat) : Prop :=
  (∀ c ∈ cuts, c.isOn level.1 = false) ∧
    ∃ c, cuts.find? (Cut.isAbove level.1 level.2) = some c ∧ c.isRange = true

def Undercut (cuts : List Cut) (level : LevelRef × Nat) : Prop :=
  ∃ c ∈ cuts, c.isBelow level.1 level.2 = true

/-- The cut comes from an expression that some engine has resolved. -/
def Cut.IsResolved (c : Cut) : Prop :=
  ∃ (σ : Type) (engine : Engine σ) (cube : Cube) (expression : String) (s t : σ),
    (Cut.resolve engine cube expression).run s = (.ok c, t)

/-! ## Cuts of one hierarchy -/

def Cut.isWithin (ref : LevelRef) (c : Cut) : Bool :=
  !c.isNamedSet && c.level?.any (·.sameHierarchy ref)

theorem Cut.isWithin_of_isOn {ref : LevelRef} {c : Cut} (h : c.isOn ref = true) :
    c.isWithin ref = true := by
  have hlevel := Cut.level?_of_isOn h
  simp only [isOn, Bool.and_eq_true] at h
  simp [isWithin, h.1, hlevel, LevelRef.sameHierarchy]

theorem Cut.isWithin_of_isAbove {ref : LevelRef} {depth : Nat} {c : Cut}
    (h : c.isAbove ref depth = true) : c.isWithin ref = true := by
  simp only [isAbove, Bool.and_eq_true] at h
  simp only [isWithin, h.1.1, h.1.2, Bool.and_self]

/-- A cut lies within one hierarchy at most. -/
theorem Cut.sameHierarchy_of_isWithin {ref ref' : LevelRef} {c : Cut} (h : c.isWithin ref = true)
    (h' : c.isWithin ref' = true) : ref.sameHierarchy ref' = true := by
  simp only [isWithin, Bool.and_eq_true, Option.any_eq_true] at h h'
  obtain ⟨-, level, hlevel, hsame⟩ := h
  obtain ⟨-, level', hlevel', hsame'⟩ := h'
  rw [hlevel, Option.some.injEq] at hlevel'
  subst hlevel'
  simp only [LevelRef.sameHierarchy, Bool.and_eq_true, beq_iff_eq] at hsame hsame' ⊢
  exact ⟨hsame.1.symm.trans hsame'.1, hsame.2.symm.trans hsame'.2⟩

theorem find?_filter_isWithin {ref : LevelRef} {p : Cut → Bool}
    (h : ∀ c, p c = true → Cut.isWithin ref c = true) (cuts : List Cut) :
    (cuts.filter (Cut.isWithin ref)).find? p = cuts.find? p := by
  rw [List.find?_filter]
  congr 1
  funext c
  cases hp : p c with
  | false => simp
  | true => simp [h c hp]

/-- Only the cuts of its own hierarchy decide whether a level meets a range first. -/
theorem StartsWithRange.congr {level : LevelRef × Nat} {cuts cuts' : List Cut}
    (h : cuts.filter (Cut.isWithin level.1) = cuts'.filter (Cut.isWithin level.1)) :
    StartsWithRange cuts level ↔ StartsWithRange cuts' level := by
  have hon (cuts : List Cut) : (∀ c ∈ cuts, c.isOn level.1 = false) ↔
      (cuts.filter (Cut.isWithin level.1)).find? (Cut.isOn level.1) = none := by
    rw [find?_filter_isWithin fun _ => Cut.isWithin_of_isOn]
    simp
  have habove (cuts : List Cut) :
      (cuts.filter (Cut.isWithin level.1)).find? (Cut.isAbove level.1 level.2) =
        cuts.find? (Cut.isAbove level.1 level.2) :=
    find?_filter_isWithin (fun _ => Cut.isWithin_of_isAbove) cuts
  rw [StartsWithRange, StartsWithRange, hon cuts, hon cuts', ← habove cuts, ← habove cuts', h]

theorem filter_of_takeFirst {p q : Cut → Bool} {cuts left : List Cut} {c : Cut}
    (htake : takeFirst p cuts = some (c, left)) (hc : q c = false) : left.filter q = cuts.filter q := by
  obtain ⟨before, after, rfl, rfl, -, -⟩ := takeFirst_eq_some_iff.1 htake
  simp [hc]

/-- A drilldown leaves the cuts of other hierarchies alone. -/
theorem Claims.filter_isWithin {cuts left : List Cut} {ref other : LevelRef} {uniqueName : String}
    {depth : Nat} {axis : AxisSet} (h : Claims cuts (.level ref uniqueName depth) axis left)
    (hother : ref.sameHierarchy other = false) :
    left.filter (Cut.isWithin other) = cuts.filter (Cut.isWithin other) := by
  have hout : ∀ c : Cut, c.isWithin ref = true → c.isWithin other = false := by
    intro c hc
    by_contra hwithin
    rw [Bool.not_eq_false] at hwithin
    rw [Cut.sameHierarchy_of_isWithin hc hwithin] at hother
    cases hother
  cases h with
  | cut htake =>
      exact filter_of_takeFirst htake (hout _ (Cut.isWithin_of_isOn (takeFirst_spec htake)))
  | expansion hon htake hrange =>
      exact filter_of_takeFirst htake (hout _ (Cut.isWithin_of_isAbove (takeFirst_spec htake)))
  | plain hon habove => rfl

/-! ## One drilldown that fails -/

theorem find?_eq_map_takeFirst (p : Cut → Bool) (cuts : List Cut) :
    cuts.find? p = (takeFirst p cuts).map (·.1) := by
  induction cuts with
  | nil => rfl
  | cons c rest ih =>
      rw [takeFirst]
      cases hc : p c with
      | true => simp [hc]
      | false => simp [hc, ih, Function.comp_def]

theorem claimCut_eq_error {cuts : List Cut} {ref : LevelRef} {uniqueName : String} {depth : Nat}
    {e : QueryError} (h : claimCut cuts (.level ref uniqueName depth) = .error e) :
    StartsWithRange cuts (ref, depth) ∧ ∃ c, e = rangeExpansion c := by
  simp only [claimCut] at h
  split at h
  · cases h
  · rename_i hon
    split at h
    · rename_i c left habove
      split at h
      · rename_i hrange
        cases h
        refine ⟨⟨takeFirst_eq_none_iff.1 hon, c, ?_, hrange⟩, c, rfl⟩
        rw [find?_eq_map_takeFirst, habove, Option.map_some]
      · cases h
    · cases h

theorem not_startsWithRange_of_claims {cuts left : List Cut} {ref : LevelRef} {uniqueName : String}
    {depth : Nat} {axis : AxisSet} (h : Claims cuts (.level ref uniqueName depth) axis left) :
    ¬ StartsWithRange cuts (ref, depth) := by
  rintro ⟨hon, c, hfound, hrange⟩
  rw [find?_eq_map_takeFirst] at hfound
  cases h with
  | cut htake => simp [takeFirst_eq_none_iff.2 hon] at htake
  | expansion _ htake hnot =>
      rw [htake, Option.map_some, Option.some.injEq] at hfound
      rw [← hfound, hnot] at hrange
      cases hrange
  | plain _ habove => simp [habove] at hfound

/-! ## Drilldowns in turn -/

section Turns

variable {drilldowns : List Drilldown}

theorem drilledLevels_cons_level {d : Drilldown} {rest : List Drilldown} {ref : LevelRef}
    {uniqueName : String} {depth : Nat} (h : d.target = .level ref uniqueName depth) :
    drilledLevels (d :: rest) = (ref, depth) :: drilledLevels rest := by
  rw [drilledLevels, List.filterMap_cons, h]
  rfl

theorem drilledLevels_cons_namedSet {d : Drilldown} {rest : List Drilldown} {set : NamedSet}
    (h : d.target = .namedSet set) : drilledLevels (d :: rest) = drilledLevels rest := by
  rw [drilledLevels, List.filterMap_cons, h]
  rfl

theorem mem_drilledLevels {level : LevelRef × Nat} : level ∈ drilledLevels drilldowns ↔
    ∃ d ∈ drilldowns, ∃ uniqueName, d.target = .level level.1 uniqueName level.2 := by
  rw [drilledLevels, List.mem_filterMap]
  refine exists_congr fun d => and_congr_right fun _ => ?_
  obtain ⟨ref, depth⟩ := level
  cases d.target <;> simp

theorem claimCuts_eq_error {cuts : List Cut} {e : QueryError} (h : claimCuts cuts drilldowns = .error e) :
    ∃ c, e = rangeExpansion c := by
  induction drilldowns generalizing cuts with
  | nil => cases h
  | cons d rest ih =>
      cases hclaim : claimCut cuts d.target with
      | error e' =>
          rw [claimCuts, hclaim] at h
          cases h
          cases htarget : d.target with
          | namedSet set =>
              rw [htarget] at hclaim
              cases hclaim
          | level ref uniqueName depth =>
              rw [htarget] at hclaim
              exact (claimCut_eq_error hclaim).2
      | ok claimed =>
          obtain ⟨axis, left⟩ := claimed
          cases hrest : claimCuts left rest with
          | error e' =>
              simp only [claimCuts, hclaim, hrest, bind, Except.bind] at h
              cases h
              exact ih hrest
          | ok more =>
              simp only [claimCuts, hclaim, hrest, bind, Except.bind] at h
              cases h

/-- On different hierarchies the turns fail exactly if one of the drilled levels meets a range first
among all the cuts. -/
theorem claimCuts_fails_iff {cuts : List Cut}
    (hapart : (drilledLevels drilldowns).Pairwise fun a b => a.1.sameHierarchy b.1 = false) :
    (∃ e, claimCuts cuts drilldowns = .error e) ↔
      ∃ level ∈ drilledLevels drilldowns, StartsWithRange cuts level := by
  induction drilldowns generalizing cuts with
  | nil => simp [claimCuts, drilledLevels]
  | cons d rest ih =>
      cases htarget : d.target with
      | namedSet set =>
          rw [drilledLevels_cons_namedSet htarget] at hapart ⊢
          rw [← ih hapart, claimCuts, htarget]
          simp only [claimCut, bind, Except.bind]
          cases claimCuts cuts rest <;> simp [pure, Except.pure]
      | level ref uniqueName depth =>
          rw [drilledLevels_cons_level htarget] at hapart ⊢
          obtain ⟨hfirst, hrest⟩ := List.pairwise_cons.1 hapart
          rw [List.exists_mem_cons_iff, claimCuts, htarget]
          cases hclaim : claimCut cuts (.level ref uniqueName depth) with
          | error e =>
              exact iff_of_true ⟨e, rfl⟩ (.inl (claimCut_eq_error hclaim).1)
          | ok claimed =>
              obtain ⟨axis, left⟩ := claimed
              have hclaims := claimCut_eq_ok.1 hclaim
              -- Whatever this turn took, the later levels lie on other hierarchies and do not miss it.
              have hsame : (∃ level ∈ drilledLevels rest, StartsWithRange left level) ↔
                  ∃ level ∈ drilledLevels rest, StartsWithRange cuts level :=
                exists_congr fun level => and_congr_right fun hlevel =>
                  StartsWithRange.congr (hclaims.filter_isWithin (hfirst level hlevel))
              rw [or_iff_right (not_startsWithRange_of_claims hclaims), ← hsame, ← ih hrest]
              simp only [bind, Except.bind]
              cases claimCuts left rest <;> simp [pure, Except.pure]

/-! ## Checks on all cuts -/

theorem duplicateCut?_eq_none {earlier cuts : List Cut} (hcuts : cuts.Pairwise Cut.Apart)
    (hearlier : ∀ c ∈ cuts, c.isNamedSet = false → ∀ e ∈ earlier, e.level? ≠ c.level?) :
    duplicateCut? earlier cuts = none := by
  induction cuts generalizing earlier with
  | nil => rfl
  | cons c rest ih =>
      obtain ⟨hfirst, hrest⟩ := List.pairwise_cons.1 hcuts
      obtain ⟨hnew, hlater⟩ := List.forall_mem_cons.1 hearlier
      rw [duplicateCut?]
      split
      · exact ih hrest hlater
      · rename_i hset
        rw [Bool.not_eq_true] at hset
        rw [if_neg]
        · refine ih hrest fun b hb hbset e he => ?_
          rw [List.mem_append, List.mem_singleton] at he
          obtain he | rfl := he
          · exact hlater b hb hbset e he
          · exact hfirst b hb hset hbset
        · rw [List.any_eq_true]
          rintro ⟨e, he, hlevel⟩
          exact hnew hset e he (by simpa using hlevel)

theorem duplicateCut?_eq_none_iff {cuts : List Cut} :
    duplicateCut? [] cuts = none ↔ cuts.Pairwise Cut.Apart :=
  ⟨fun h => (pairwise_apart_of_duplicateCut? h).1, fun h => duplicateCut?_eq_none h (by simp)⟩

theorem drilldownAbove?_eq_none_iff {c : Cut} : drilldownAbove? drilldowns c = none ↔
    ∀ level ∈ drilledLevels drilldowns, c.isBelow level.1 level.2 = false := by
  rw [drilldownAbove?, List.find?_eq_none]
  constructor
  · intro h level hlevel
    obtain ⟨d, hd, uniqueName, htarget⟩ := mem_drilledLevels.1 hlevel
    simpa [htarget] using h d hd
  · intro h d hd
    cases htarget : d.target with
    | namedSet set => simp
    | level ref uniqueName depth =>
        simpa using h (ref, depth) (mem_drilledLevels.2 ⟨d, hd, uniqueName, htarget⟩)

theorem deeperCut?_eq_none_iff {cuts : List Cut} : deeperCut? drilldowns cuts = none ↔
    ∀ level ∈ drilledLevels drilldowns, ¬ Undercut cuts level := by
  have hcuts : deeperCut? drilldowns cuts = none ↔
      ∀ c ∈ cuts, drilldownAbove? drilldowns c = none := by
    refine ⟨drilldownAbove?_of_deeperCut?, fun h => ?_⟩
    induction cuts with
    | nil => rfl
    | cons c rest ih =>
        obtain ⟨hfirst, hrest⟩ := List.forall_mem_cons.1 h
        rw [deeperCut?, hfirst]
        exact ih hrest
  simp only [hcuts, drilldownAbove?_eq_none_iff, Undercut, not_exists, not_and, Bool.not_eq_true]
  exact ⟨fun h level hlevel c hc => h c hc level hlevel, fun h c hc level hlevel => h level hlevel c hc⟩

theorem ClaimRun.exists_serves {cuts slicer : List Cut} {axes : List AxisSet}
    (h : ClaimRun cuts drilldowns axes slicer) {axis : AxisSet} (haxis : axis ∈ axes) :
    ∃ d ∈ drilldowns, axis.Serves d.target := by
  induction h with
  | nil cuts => simp at haxis
  | cons step run ih =>
      obtain rfl | haxis := List.mem_cons.1 haxis
      · exact ⟨_, List.mem_cons_self, step.serves⟩
      · obtain ⟨d, hd, hserves⟩ := ih haxis
        exact ⟨d, List.mem_cons_of_mem _ hd, hserves⟩

/-- Drilled levels of one hierarchy are the same. -/
theorem eq_of_mem_drilledLevels
    (hapart : (drilledLevels drilldowns).Pairwise fun a b => a.1.sameHierarchy b.1 = false)
    {a b : LevelRef × Nat} (ha : a ∈ drilledLevels drilldowns) (hb : b ∈ drilledLevels drilldowns)
    (hsame : a.1.sameHierarchy b.1 = true) : a = b := by
  by_contra hne
  have : Std.Symm fun a b : LevelRef × Nat => a.1.sameHierarchy b.1 = false :=
    ⟨fun a b h => (LevelRef.sameHierarchy_comm b.1 a.1).trans h⟩
  have hdifferent := hapart.forall ha hb hne
  rw [hsame] at hdifferent
  cases hdifferent

theorem Cut.isBelow_iff {ref : LevelRef} {depth : Nat} {c : Cut} : c.isBelow ref depth = true ↔
    c.isWithin ref = true ∧ ∃ k, c.depth? = some k ∧ depth < k := by
  simp only [isBelow, isWithin, LevelRef.sameHierarchy_comm ref, Bool.and_eq_true,
    Option.any_eq_true (p := (decide <| depth < ·)), decide_eq_true_eq]

/-- An axis takes no cut below the level that it serves. -/
theorem AxisSet.Serves.isBelow_eq_false {axis : AxisSet} {ref : LevelRef} {uniqueName : String}
    {depth : Nat} (h : axis.Serves (.level ref uniqueName depth)) {c : Cut}
    (hcut : axis.cut? = some c) (hdepths : ∀ m ∈ c.members, m.level = ref → m.depth = depth) :
    c.isWithin ref = true ∧ c.isBelow ref depth = false := by
  cases h with
  | cut hon =>
      cases hcut
      have hset : c.isNamedSet = false := by
        simp only [Cut.isOn, Bool.and_eq_true, Bool.not_eq_true'] at hon
        exact hon.1
      obtain ⟨m, hm, hlevel, hdepth⟩ := Cut.depth?_of_level? hset (Cut.level?_of_isOn hon)
      refine ⟨Cut.isWithin_of_isOn hon, ?_⟩
      simp [Cut.isBelow, hdepth, hdepths m hm hlevel]
  | expansion habove hrange =>
      cases hcut
      refine ⟨Cut.isWithin_of_isAbove habove, ?_⟩
      simp only [Cut.isAbove, Bool.and_eq_true, Option.any_eq_true, decide_eq_true_eq] at habove
      obtain ⟨-, k, hdepth, hlt⟩ := habove
      simp [Cut.isBelow, hdepth, Nat.le_of_lt hlt]
  | plain => cases hcut

/-- No axis takes a cut below a drilled level, so it is left for the last check. -/
theorem ClaimRun.undercut_iff {cuts slicer : List Cut} {axes : List AxisSet}
    (h : ClaimRun cuts drilldowns axes slicer)
    (hapart : (drilledLevels drilldowns).Pairwise fun a b => a.1.sameHierarchy b.1 = false)
    (hdepths : ∀ c ∈ cuts, ∀ m ∈ c.members, ∀ level ∈ drilledLevels drilldowns,
      m.level = level.1 → m.depth = level.2)
    {level : LevelRef × Nat} (hlevel : level ∈ drilledLevels drilldowns) :
    Undercut slicer level ↔ Undercut cuts level := by
  constructor
  · rintro ⟨c, hc, hbelow⟩
    exact ⟨c, h.sublist.mem hc, hbelow⟩
  · rintro ⟨c, hc, hbelow⟩
    refine ⟨c, ?_, hbelow⟩
    obtain htaken | hleft := List.mem_append.1 (h.perm.mem_iff.2 hc)
    · -- An axis of the same hierarchy would be the level itself, and that takes nothing below it.
      obtain ⟨axis, haxis, hcut⟩ := List.mem_filterMap.1 htaken
      obtain ⟨d, hd, hserves⟩ := h.exists_serves haxis
      cases htarget : d.target with
      | namedSet set =>
          rw [htarget] at hserves
          cases hserves
          cases hcut
      | level ref uniqueName depth =>
          rw [htarget] at hserves
          have hdrilled : (ref, depth) ∈ drilledLevels drilldowns :=
            mem_drilledLevels.2 ⟨d, hd, uniqueName, htarget⟩
          obtain ⟨hwithin, hnot⟩ := hserves.isBelow_eq_false hcut fun m hm =>
            hdepths c hc m hm (ref, depth) hdrilled
          have hsame := Cut.sameHierarchy_of_isWithin hwithin (Cut.isBelow_iff.1 hbelow).1
          obtain rfl := eq_of_mem_drilledLevels hapart hdrilled hlevel hsame
          rw [hbelow] at hnot
          cases hnot
    · exact hleft

end Turns

/-! ## Resolved cuts -/

theorem ne_nil_of_onOneLevel {xs : List Located} (h : Cut.onOneLevel xs = true) : xs ≠ [] := by
  rintro rfl
  cases h

/-- A resolved cut mentions a member, unless it is a named set. -/
theorem Cut.IsResolved.members_ne_nil {c : Cut} (h : c.IsResolved) (hset : c.isNamedSet = false) :
    c.members ≠ [] := by
  obtain ⟨σ, engine, cube, expression, s, t, hrun⟩ := h
  obtain ⟨-, hread⟩ := Cut.resolve_outcome_eq_ok.1 (congrArg Prod.fst hrun)
  split at hread
  · rw [Cut.isNamedSet, hread] at hset
    cases hset
  · rw [Cut.members, Ne, List.map_eq_nil_iff]
    exact ne_nil_of_onOneLevel (Cut.locatePattern_outcome_eq_ok.1 hread).1
  · exact hread.elim

theorem Cut.IsResolved.exists_level {c : Cut} (h : c.IsResolved) (hset : c.isNamedSet = false) :
    ∃ level, c.level? = some level := by
  obtain ⟨m, rest, hmembers⟩ := List.exists_cons_of_ne_nil (h.members_ne_nil hset)
  rw [Cut.level?]
  split
  · rename_i hshape
    simp [Cut.isNamedSet, hshape] at hset
  · exact ⟨m.level, by rw [hmembers]; rfl⟩

theorem conflicting_iff {cuts : List Cut} (hresolved : ∀ c ∈ cuts, c.IsResolved) :
    Conflicting cuts ↔ ¬ cuts.Pairwise Cut.Apart := by
  rw [List.pairwise_iff_forall_sublist]
  constructor
  · rintro ⟨a, b, level, hsub, ha, hb, hlevel, hlevel'⟩ h
    exact h hsub ha hb (hlevel.trans hlevel'.symm)
  · intro h
    simp only [not_forall, Cut.Apart, Decidable.not_not] at h
    obtain ⟨a, b, hsub, ha, hb, hlevels⟩ := h
    obtain ⟨level, hlevel⟩ := (hresolved a (hsub.mem (by simp))).exists_level ha
    exact ⟨a, b, level, hsub, ha, hb, hlevel, hlevels ▸ hlevel⟩

/-! ## The outcome of a match -/

section Outcome

variable {drilldowns : List Drilldown} {cuts : List Cut}

theorem matchCuts_of_not_apart (h : ¬ cuts.Pairwise Cut.Apart) :
    ∃ cut reason, matchCuts drilldowns cuts = .error (.invalidCut cut reason) := by
  rw [← duplicateCut?_eq_none_iff] at h
  obtain ⟨c, hc⟩ := Option.ne_none_iff_exists'.1 h
  exact ⟨_, _, by rw [matchCuts, hc]⟩

theorem matchCuts_of_claimCuts_error (h : cuts.Pairwise Cut.Apart) {e : QueryError}
    (he : claimCuts cuts drilldowns = .error e) :
    ∃ reason, matchCuts drilldowns cuts = .error (.unsupportedOperation reason) := by
  obtain ⟨c, rfl⟩ := claimCuts_eq_error he
  have heq : matchCuts drilldowns cuts = .error (rangeExpansion c) := by
    rw [matchCuts, duplicateCut?_eq_none_iff.2 h, he]
    rfl
  exact ⟨_, heq⟩

theorem matchCuts_of_deeperCut (h : cuts.Pairwise Cut.Apart) {axes : List AxisSet}
    {slicer : List Cut} (hok : claimCuts cuts drilldowns = .ok (axes, slicer))
    (hdeeper : deeperCut? drilldowns slicer ≠ none) :
    ∃ cut drilldown, matchCuts drilldowns cuts = .error (.illegalDrilldown cut drilldown) := by
  obtain ⟨⟨c, d⟩, hfound⟩ := Option.ne_none_iff_exists'.1 hdeeper
  have heq : matchCuts drilldowns cuts = .error (.illegalDrilldown c.expression d.expression) := by
    rw [matchCuts, duplicateCut?_eq_none_iff.2 h, hok]
    simp only [bind, Except.bind, hfound]
  exact ⟨_, _, heq⟩

end Outcome

/-- A match of cuts with drilldowns on different hierarchies fails for a conflict of two cuts, else for
a range that an axis meets first, else for a cut below a drilled level, and for nothing else. -/
theorem matchCuts_fails_exactly (drilldowns : List Drilldown) (cuts : List Cut)
    (hapart : (drilledLevels drilldowns).Pairwise fun a b => a.1.sameHierarchy b.1 = false)
    (hresolved : ∀ c ∈ cuts, c.IsResolved)
    (hdepths : ∀ c ∈ cuts, ∀ m ∈ c.members, ∀ level ∈ drilledLevels drilldowns,
      m.level = level.1 → m.depth = level.2) :
    ((∃ cut reason, matchCuts drilldowns cuts = .error (.invalidCut cut reason)) ↔
      Conflicting cuts) ∧
    (¬ Conflicting cuts →
      ((∃ reason, matchCuts drilldowns cuts = .error (.unsupportedOperation reason)) ↔
        ∃ level ∈ drilledLevels drilldowns, StartsWithRange cuts level) ∧
      ((¬ ∃ level ∈ drilledLevels drilldowns, StartsWithRange cuts level) →
        ((∃ cut drilldown, matchCuts drilldowns cuts = .error (.illegalDrilldown cut drilldown)) ↔
          ∃ level ∈ drilledLevels drilldowns, Undercut cuts level) ∧
        ((¬ ∃ level ∈ drilledLevels drilldowns, Undercut cuts level) →
          ∃ plan, matchCuts drilldowns cuts = .ok plan))) := by
  rw [conflicting_iff hresolved, ← claimCuts_fails_iff hapart]
  by_cases hpairwise : cuts.Pairwise Cut.Apart
  · cases hclaims : claimCuts cuts drilldowns with
    | error e =>
        obtain ⟨reason, heq⟩ := matchCuts_of_claimCuts_error hpairwise hclaims
        simp [heq, hpairwise]
    | ok claimed =>
        obtain ⟨axes, slicer⟩ := claimed
        have hrun := claimCuts_eq_ok.1 hclaims
        have hundercut : deeperCut? drilldowns slicer = none ↔
            ¬ ∃ level ∈ drilledLevels drilldowns, Undercut cuts level := by
          simp only [deeperCut?_eq_none_iff, not_exists, not_and]
          exact forall₂_congr fun level hlevel =>
            not_congr (hrun.undercut_iff hapart hdepths hlevel)
        by_cases hdeeper : deeperCut? drilldowns slicer = none
        · have heq : matchCuts drilldowns cuts = .ok ⟨axes, slicer⟩ :=
            matchCuts_eq_ok.2 ⟨duplicateCut?_eq_none_iff.2 hpairwise, hrun, hdeeper⟩
          simp [heq, hpairwise, hundercut.1 hdeeper]
        · obtain ⟨cut, drilldown, heq⟩ := matchCuts_of_deeperCut hpairwise hclaims hdeeper
          simp [heq, hpairwise, not_not.1 (mt hundercut.2 hdeeper)]
  · have hconflict : ∃ cut reason, matchCuts drilldowns cuts = .error (.invalidCut cut reason) :=
      matchCuts_of_not_apart hpairwise
    obtain ⟨cut, reason, heq⟩ := hconflict
    simp [heq, hpairwise]

/-- A range of years that months would have to expand is refused before the day below them. -/
theorem matchCuts_fails_exactly_range :
    let level (name : String) : LevelRef := ⟨"Time", "Time", name⟩
    let member (name on : String) (depth : Nat) : Member :=
      { Member.ofMeasure name name name with depth, level := level on }
    let engine : Engine Unit := {
      cubeNames := pure []
      cube := fun _ => pure none
      member := fun _ name => pure (some
        (if name = "[1 May]" then member "1 May" "Day" 2 else member name "Year" 0))
      ancestors := fun _ _ => pure []
      children := fun _ _ => pure []
      levelMembers := fun _ _ => pure []
      execute := fun _ _ => throw (.unsupported "execute")
      flush := pure () }
    let cube : Cube := ⟨"Sales", .empty, [], [], []⟩
    let drilldowns : List Drilldown :=
      [⟨"Top", .namedSet ⟨"Top", some (level "Day")⟩⟩,
        ⟨"Time.Month", .level (level "Month") "[Time].[Month]" 1⟩]
    ∃ day years : Cut, (Cut.resolve engine cube "[1 May]").run () = (.ok day, ()) ∧
      (Cut.resolve engine cube "[1997] : [1998]").run () = (.ok years, ()) ∧
      day.isBelow (level "Month") 1 = true ∧
      ∃ reason, matchCuts drilldowns [day, years] = .error (.unsupportedOperation reason) := by
  intro level member engine cube drilldowns
  have hcompute : (((Cut.resolve engine cube "[1 May]").run ()).1.toOption.any fun day =>
      ((Cut.resolve engine cube "[1997] : [1998]").run ()).1.toOption.any fun years =>
        decide (day.isBelow (level "Month") 1 = true ∧ day.level? = some (level "Day") ∧
          day.isAbove (level "Month") 1 = false ∧ years.level? = some (level "Year") ∧
          years.isAbove (level "Month") 1 = true ∧ years.isRange = true ∧
          ∀ c ∈ [day, years], ∀ m ∈ c.members, m.level ≠ level "Month")) = true := by
    decide +kernel
  simp only [Option.any_eq_true, toOption_eq_some_iff, decide_eq_true_eq] at hcompute
  obtain ⟨day, hday, years, hyears, hbelow, hdayLevel, hnotAbove, hyearsLevel, habove, hrange,
    hlevels⟩ := hcompute
  have hdayRun : (Cut.resolve engine cube "[1 May]").run () = (.ok day, ()) :=
    Prod.ext hday (Subsingleton.elim _ _)
  have hyearsRun : (Cut.resolve engine cube "[1997] : [1998]").run () = (.ok years, ()) :=
    Prod.ext hyears (Subsingleton.elim _ _)
  have hresolved : ∀ c ∈ [day, years], c.IsResolved :=
    List.forall_mem_cons.2 ⟨⟨Unit, engine, cube, _, _, _, hdayRun⟩,
      List.forall_mem_singleton.2 ⟨Unit, engine, cube, _, _, _, hyearsRun⟩⟩
  have hcalm : ¬ Conflicting [day, years] := by
    rw [conflicting_iff hresolved, not_not, List.pairwise_pair]
    intro _ _
    rw [hdayLevel, hyearsLevel]
    decide
  have hmonth : drilledLevels drilldowns = [(level "Month", 1)] := rfl
  have hstarts : StartsWithRange [day, years] (level "Month", 1) := by
    refine ⟨?_, years, ?_, hrange⟩
    · simp [Cut.isOn, hdayLevel, hyearsLevel, level]
    · simp [hnotAbove, habove]
  obtain ⟨-, hmatch⟩ := matchCuts_fails_exactly drilldowns [day, years]
    (by rw [hmonth]; exact List.pairwise_singleton _ _) hresolved
    (fun c hc m hm l hl hml => absurd hml (by
      rw [hmonth, List.mem_singleton] at hl
      rw [hl]
      exact hlevels c hc m hm))
  exact ⟨day, years, hdayRun, hyearsRun, hbelow,
    (hmatch hcalm).1.2 ⟨_, by rw [hmonth]; exact List.mem_singleton.2 rfl, hstarts⟩⟩

end CubeQuery.Plan
