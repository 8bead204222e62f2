import CubeQuery.Plan.Axes
import CubeQuery.Proofs.Outcome

/-!
# Axes and the cuts they take

One drilldown leaves the cuts alone or takes exactly one of them away (`Claims`); a run over several
drilldowns is made of such steps (`ClaimRun`). What one step keeps is carried over runs by induction:
no cut is lost and none is used twice.
-/

namespace CubeQuery.Plan

/-! ## Taking a cut out of a list -/

section TakeFirst

variable {p : Cut → Bool} {cuts left : List Cut} {c : Cut}

theorem takeFirst_eq_none_iff : takeFirst p cuts = none ↔ ∀ c ∈ cuts, p c = false := by
  induction cuts with
  | nil => simp [takeFirst]
  | cons d rest ih =>
      rw [takeFirst]
      split
      · rename_i hd
        simp [hd]
      · rename_i hd
        simp [hd, ih]

/-- The cut that is taken is the first of its kind, and the others keep their order. -/
theorem takeFirst_eq_some_iff : takeFirst p cuts = some (c, left) ↔
    ∃ before after, cuts = before ++ c :: after ∧ left = before ++ after ∧ p c = true ∧
      ∀ b ∈ before, p b = false := by
  induction cuts generalizing left with
  | nil => simp [takeFirst]
  | cons d rest ih =>
      rw [takeFirst]
      split
      · rename_i hd
        constructor
        · intro h
          cases h
          exact ⟨[], rest, rfl, rfl, hd, by simp⟩
        · intro h
          obtain ⟨before, after, hcuts, rfl, -, hbefore⟩ := h
          cases before with
          | nil =>
              cases hcuts
              rfl
          | cons b before =>
              cases hcuts
              rw [hbefore _ List.mem_cons_self] at hd
              cases hd
      · rename_i hd
        constructor
        · intro h
          obtain ⟨⟨taken, others⟩, htake, hpair⟩ := Option.map_eq_some_iff.1 h
          cases hpair
          obtain ⟨before, after, rfl, rfl, hc, hbefore⟩ := ih.1 htake
          refine ⟨d :: before, after, rfl, rfl, hc, ?_⟩
          exact List.forall_mem_cons.2 ⟨by simpa using hd, hbefore⟩
        · intro h
          obtain ⟨before, after, hcuts, rfl, hc, hbefore⟩ := h
          cases before with
          | nil =>
              cases hcuts
              exact absurd hc hd
          | cons b before =>
              cases hcuts
              obtain ⟨_, hmore⟩ := List.forall_mem_cons.1 hbefore
              rw [ih.2 ⟨before, after, rfl, rfl, hc, hmore⟩]
              rfl

theorem takeFirst_perm (h : takeFirst p cuts = some (c, left)) : (c :: left).Perm cuts := by
  obtain ⟨before, after, rfl, rfl, -, -⟩ := takeFirst_eq_some_iff.1 h
  exact List.perm_middle.symm

theorem takeFirst_sublist (h : takeFirst p cuts = some (c, left)) : left.Sublist cuts := by
  obtain ⟨before, after, rfl, rfl, -, -⟩ := takeFirst_eq_some_iff.1 h
  exact (List.sublist_cons_self c after).append_left before

theorem takeFirst_spec (h : takeFirst p cuts = some (c, left)) : p c = true := by
  obtain ⟨_, _, -, -, hc, -⟩ := takeFirst_eq_some_iff.1 h
  exact hc

end TakeFirst

/-! ## One drilldown -/

/-- What a drilldown makes of the cuts that are left: its axis, and the cuts it leaves. -/
inductive Claims (cuts : List Cut) : DrilldownTarget → AxisSet → List Cut → Prop where
  | namedSet (set : NamedSet) : Claims cuts (.namedSet set) (.namedSet set) cuts
  | cut {ref : LevelRef} {uniqueName : String} {depth : Nat} {c : Cut} {left : List Cut}
      (htake : takeFirst (Cut.isOn ref) cuts = some (c, left)) :
      Claims cuts (.level ref uniqueName depth) (.cut c) left
  | expansion {ref : LevelRef} {uniqueName : String} {depth : Nat} {c : Cut} {left : List Cut}
      (hon : takeFirst (Cut.isOn ref) cuts = none)
      (htake : takeFirst (Cut.isAbove ref depth) cuts = some (c, left)) (hrange : c.isRange = false) :
      Claims cuts (.level ref uniqueName depth) (.expansion c ref uniqueName) left
  | plain {ref : LevelRef} {uniqueName : String} {depth : Nat}
      (hon : takeFirst (Cut.isOn ref) cuts = none)
      (habove : takeFirst (Cut.isAbove ref depth) cuts = none) :
      Claims cuts (.level ref uniqueName depth) (.plain ref uniqueName) cuts

theorem claimCut_eq_ok {cuts left : List Cut} {target : DrilldownTarget} {axis : AxisSet} :
    claimCut cuts target = .ok (axis, left) ↔ Claims cuts target axis left := by
  constructor
  · intro h
    cases target with
    | namedSet set =>
        cases h
        exact .namedSet set
    | level ref uniqueName depth =>
        simp only [claimCut] at h
        split at h
        · rename_i hon
          cases h
          exact .cut hon
        · rename_i hon
          split at h
          · rename_i habove
            split at h
            · cases h
            · rename_i hrange
              cases h
              exact .expansion hon habove (by simpa using hrange)
          · rename_i habove
            cases h
            exact .plain hon habove
  · intro h
    cases h with
    | namedSet set => rfl
    | cut htake => simp [claimCut, htake]
    | expansion hon htake hrange => simp [claimCut, hon, htake, hrange]
    | plain hon habove => simp [claimCut, hon, habove]

/-- The axis stands for the drilldown: it is the set that is named, or it has the level that is drilled
and at most a cut on that level or above it. -/
inductive AxisSet.Serves : AxisSet → DrilldownTarget → Prop where
  | namedSet (set : NamedSet) : Serves (.namedSet set) (.namedSet set)
  | cut {ref : LevelRef} {c : Cut} (hon : c.isOn ref = true) (uniqueName : String) (depth : Nat) :
      Serves (.cut c) (.level ref uniqueName depth)
  | expansion {ref : LevelRef} {depth : Nat} {c : Cut} (habove : c.isAbove ref depth = true)
      (hrange : c.isRange = false) (uniqueName : String) :
      Serves (.expansion c ref uniqueName) (.level ref uniqueName depth)
  | plain (ref : LevelRef) (uniqueName : String) (depth : Nat) :
      Serves (.plain ref uniqueName) (.level ref uniqueName depth)

theorem Cut.level?_of_isOn {ref : LevelRef} {c : Cut} (h : c.isOn ref = true) :
    c.level? = some ref := by
  simp only [Cut.isOn, Bool.and_eq_true, beq_iff_eq] at h
  exact h.2

theorem AxisSet.Serves.level?_eq {axis : AxisSet} {d : Drilldown} (h : axis.Serves d.target) :
    axis.level? = d.level? := by
  rw [Drilldown.level?]
  revert h
  generalize d.target = target
  intro h
  cases h with
  | namedSet set => rfl
  | cut hon uniqueName depth => exact Cut.level?_of_isOn hon
  | expansion habove hrange uniqueName => rfl
  | plain ref uniqueName depth => rfl

section Claims

variable {cuts left : List Cut} {target : DrilldownTarget} {axis : AxisSet}

theorem Claims.serves (h : Claims cuts target axis left) : axis.Serves target := by
  cases h with
  | namedSet set => exact .namedSet set
  | cut htake => exact .cut (takeFirst_spec htake) _ _
  | expansion hon htake hrange => exact .expansion (takeFirst_spec htake) hrange _
  | plain hon habove => exact .plain _ _ _

theorem Claims.perm (h : Claims cuts target axis left) :
    (axis.cut?.toList ++ left).Perm cuts := by
  cases h with
  | namedSet set => exact .refl _
  | cut htake => exact takeFirst_perm htake
  | expansion hon htake hrange => exact takeFirst_perm htake
  | plain hon habove => exact .refl _

theorem Claims.sublist (h : Claims cuts target axis left) : left.Sublist cuts := by
  cases h with
  | namedSet set => exact .refl _
  | cut htake => exact takeFirst_sublist htake
  | expansion hon htake hrange => exact takeFirst_sublist htake
  | plain hon habove => exact .refl _

end Claims

/-- The cut of an axis is never a named set. -/
theorem AxisSet.Serves.isNamedSet_eq_false {axis : AxisSet} {target : DrilldownTarget}
    (h : axis.Serves target) {c : Cut} (hc : axis.cut? = some c) : c.isNamedSet = false := by
  cases h with
  | namedSet set => cases hc
  | cut hon uniqueName depth =>
      cases hc
      simp only [Cut.isOn, Bool.and_eq_true, Bool.not_eq_true'] at hon
      exact hon.1
  | expansion habove hrange uniqueName =>
      cases hc
      simp only [Cut.isAbove, Bool.and_eq_true, Bool.not_eq_true'] at habove
      exact habove.1.1
  | plain ref uniqueName depth => cases hc

/-! ## Drilldowns in turn -/

/-- The axes of drilldowns in turn, and the cuts that are left behind the last. -/
inductive ClaimRun : List Cut → List Drilldown → List AxisSet → List Cut → Prop where
  | nil (cuts : List Cut) : ClaimRun cuts [] [] cuts
  | cons {cuts left last : List Cut} {d : Drilldown} {rest : List Drilldown} {axis : AxisSet}
      {axes : List AxisSet} (step : Claims cuts d.target axis left)
      (run : ClaimRun left rest axes last) : ClaimRun cuts (d :: rest) (axis :: axes) last

theorem claimCuts_eq_ok {cuts left : List Cut} {drilldowns : List Drilldown} {axes : List AxisSet} :
    claimCuts cuts drilldowns = .ok (axes, left) ↔ ClaimRun cuts drilldowns axes left := by
  induction drilldowns generalizing cuts axes with
  | nil =>
      constructor
      · intro h
        cases h
        exact .nil _
      · intro h
        cases h
        rfl
  | cons d rest ih =>
      simp only [claimCuts, bind_eq_ok]
      constructor
      · intro h
        obtain ⟨⟨axis, after⟩, hstep, ⟨more, last⟩, hrun, h⟩ := h
        cases h
        exact .cons (claimCut_eq_ok.1 hstep) (ih.1 hrun)
      · intro h
        cases h with
        | cons step run => exact ⟨_, claimCut_eq_ok.2 step, _, ih.2 run, rfl⟩

section Run

variable {cuts left : List Cut} {drilldowns : List Drilldown} {axes : List AxisSet}

/-- Every drilldown has its axis, in order. -/
theorem ClaimRun.serves (h : ClaimRun cuts drilldowns axes left) :
    List.Forall₂ (fun axis d => axis.Serves d.target) axes drilldowns := by
  induction h with
  | nil cuts => exact .nil
  | cons step run ih => exact .cons step.serves ih

/-- The cuts of the axes and those that are left are all the cuts. -/
theorem ClaimRun.perm (h : ClaimRun cuts drilldowns axes left) :
    (axes.filterMap (·.cut?) ++ left).Perm cuts := by
  induction h with
  | nil cuts => exact .refl _
  | @cons cuts left last d rest axis axes step run ih =>
      have hcons : (axis :: axes).filterMap (·.cut?) =
          axis.cut?.toList ++ axes.filterMap (·.cut?) := by
        cases hcut : axis.cut? <;> simp [hcut]
      rw [hcons, List.append_assoc]
      exact (ih.append_left _).trans step.perm

theorem ClaimRun.sublist (h : ClaimRun cuts drilldowns axes left) : left.Sublist cuts := by
  induction h with
  | nil cuts => exact .refl _
  | cons step run ih => exact ih.trans step.sublist

theorem ClaimRun.isNamedSet_eq_false (h : ClaimRun cuts drilldowns axes left) :
    ∀ axis ∈ axes, ∀ c, axis.cut? = some c → c.isNamedSet = false := by
  induction h with
  | nil cuts => simp
  | cons step run ih =>
      exact List.forall_mem_cons.2 ⟨fun c hc => step.serves.isNamedSet_eq_false hc, ih⟩

/-- Named sets are left behind, all of them and in order. -/
theorem ClaimRun.filter_isNamedSet (h : ClaimRun cuts drilldowns axes left) :
    left.filter (·.isNamedSet) = cuts.filter (·.isNamedSet) := by
  have htaken : (axes.filterMap (·.cut?)).filter (·.isNamedSet) = [] := by
    rw [List.filter_eq_nil_iff]
    intro c hc
    obtain ⟨axis, haxis, hcut⟩ := List.mem_filterMap.1 hc
    simp [h.isNamedSet_eq_false axis haxis c hcut]
  have hperm := h.perm.filter (·.isNamedSet)
  rw [List.filter_append, htaken, List.nil_append] at hperm
  exact (h.sublist.filter _).eq_of_length hperm.length_eq

end Run

/-! ## The whole match -/

theorem matchCuts_eq_ok {drilldowns : List Drilldown} {cuts : List Cut} {plan : AxisPlan} :
    matchCuts drilldowns cuts = .ok plan ↔
      duplicateCut? [] cuts = none ∧ ClaimRun cuts drilldowns plan.axes plan.slicer ∧
        deeperCut? drilldowns plan.slicer = none := by
  simp only [matchCuts]
  split
  · rename_i hduplicate
    simp [hduplicate]
  · rename_i hduplicate
    simp only [hduplicate, true_and, bind_eq_ok, Prod.exists, claimCuts_eq_ok]
    constructor
    · intro h
      obtain ⟨axes, slicer, hrun, h⟩ := h
      split at h
      · cases h
      · rename_i hdeeper
        cases h
        exact ⟨hrun, hdeeper⟩
    · intro h
      obtain ⟨hrun, hdeeper⟩ := h
      exact ⟨plan.axes, plan.slicer, hrun, by rw [hdeeper]; rfl⟩

end CubeQuery.Plan
