import CubeQuery.Proofs.Plan.Refusals

/-!
# The order of cuts

A drilldown looks for its cut within one hierarchy, so cuts of different hierarchies and named sets may
change places: the same cuts are taken, at every turn (`Claims.reordered`) and in a whole run. Only the
order within one hierarchy matters (`matchCuts_reordered`).
-/

namespace CubeQuery.Plan

/-- The second list has the cuts of the first one in another order, in which the cuts of one hierarchy,
named sets apart, follow each other as before. -/
structure Reordered (cuts cuts' : List Cut) : Prop where
  perm : cuts.Perm cuts'
  within : ∀ ref, cuts.filter (Cut.isWithin ref) = cuts'.filter (Cut.isWithin ref)

theorem Reordered.symm {cuts cuts' : List Cut} (h : Reordered cuts cuts') : Reordered cuts' cuts where
  perm := h.perm.symm
  within ref := (h.within ref).symm

/-! ## Taking a cut -/

/-- The cuts of another kind are passed over. -/
theorem takeFirst_filter {p q : Cut → Bool} (hpq : ∀ c, p c = true → q c = true) (cuts : List Cut) :
    takeFirst p (cuts.filter q) = (takeFirst p cuts).map fun (c, left) => (c, left.filter q) := by
  induction cuts with
  | nil => rfl
  | cons c rest ih =>
      cases hp : p c with
      | true => simp [takeFirst, hp, hpq c hp]
      | false =>
          cases hq : q c with
          | true => simp [takeFirst, hp, hq, ih, Function.comp_def]
          | false => simp [takeFirst, hp, hq, ih, Function.comp_def]

theorem Cut.isWithin_congr {ref ref' : LevelRef} (h : ref.sameHierarchy ref' = true) (c : Cut) :
    c.isWithin ref = c.isWithin ref' := by
  simp only [LevelRef.sameHierarchy, Bool.and_eq_true, beq_iff_eq] at h
  simp only [isWithin, LevelRef.sameHierarchy, h.1, h.2]

section Reordered

variable {p : Cut → Bool} {ref : LevelRef} {cuts cuts' left : List Cut} {c : Cut}

theorem Reordered.takeFirst_eq_none (h : Reordered cuts cuts') (htake : takeFirst p cuts = none) :
    takeFirst p cuts' = none :=
  takeFirst_eq_none_iff.2 fun c hc => takeFirst_eq_none_iff.1 htake c (h.perm.mem_iff.2 hc)

/-- Within a hierarchy the same cut comes first in both lists, and without it they are reordered as
before. -/
theorem Reordered.exists_takeFirst (h : Reordered cuts cuts')
    (hp : ∀ c, p c = true → c.isWithin ref = true) (htake : takeFirst p cuts = some (c, left)) :
    ∃ left', takeFirst p cuts' = some (c, left') ∧ Reordered left left' := by
  have hfilter := takeFirst_filter hp cuts
  rw [h.within ref, takeFirst_filter hp, htake, Option.map_some, Option.map_eq_some_iff] at hfilter
  obtain ⟨⟨c', left'⟩, htake', hpair⟩ := hfilter
  obtain ⟨rfl, hsame⟩ := Prod.mk.inj hpair
  have hperm : (c' :: left).Perm (c' :: left') :=
    ((takeFirst_perm htake).trans h.perm).trans (takeFirst_perm htake').symm
  refine ⟨left', htake', hperm.cons_inv, fun other => ?_⟩
  cases hother : c'.isWithin other with
  | true =>
      have hhierarchy := Cut.sameHierarchy_of_isWithin hother (hp c' (takeFirst_spec htake))
      rw [funext (Cut.isWithin_congr hhierarchy)]
      exact hsame.symm
  | false => rw [filter_of_takeFirst htake hother, filter_of_takeFirst htake' hother, h.within other]

end Reordered

/-- Blocks of cuts that have no hierarchy in common may change places. -/
theorem reordered_append_comm {a b : List Cut}
    (hapart : ∀ x ∈ a, ∀ ref, x.isNamedSet = false → x.level? = some ref →
      ∀ y ∈ b, y.isWithin ref = false) : Reordered (a ++ b) (b ++ a) where
  perm := List.perm_append_comm
  within ref := by
    rw [List.filter_append, List.filter_append]
    by_cases hnone : ∃ x ∈ a, x.isWithin ref = true
    · obtain ⟨x, hx, hwithin⟩ := hnone
      simp only [Cut.isWithin, Bool.and_eq_true, Bool.not_eq_true', Option.any_eq_true] at hwithin
      obtain ⟨hset, own, hown, hsame⟩ := hwithin
      have hb : b.filter (Cut.isWithin ref) = [] := by
        rw [List.filter_eq_nil_iff]
        intro y hy
        rw [← Cut.isWithin_congr hsame, hapart x hx own hset hown y hy]
        exact Bool.false_ne_true
      rw [hb, List.append_nil, List.nil_append]
    · have ha : a.filter (Cut.isWithin ref) = [] := by
        rw [List.filter_eq_nil_iff]
        exact fun x hx hwithin => hnone ⟨x, hx, hwithin⟩
      rw [ha, List.append_nil, List.nil_append]

/-! ## Drilldowns -/

section Runs

variable {cuts cuts' left slicer : List Cut} {target : DrilldownTarget} {axis : AxisSet}
  {drilldowns : List Drilldown} {axes : List AxisSet}

/-- A drilldown makes the same axis of reordered cuts. -/
theorem Claims.reordered (h : Claims cuts target axis left) (horder : Reordered cuts cuts') :
    ∃ left', Claims cuts' target axis left' ∧ Reordered left left' := by
  cases h with
  | namedSet set => exact ⟨cuts', .namedSet set, horder⟩
  | cut htake =>
      obtain ⟨left', htake', hleft⟩ :=
        horder.exists_takeFirst (fun _ => Cut.isWithin_of_isOn) htake
      exact ⟨left', .cut htake', hleft⟩
  | expansion hon htake hrange =>
      obtain ⟨left', htake', hleft⟩ :=
        horder.exists_takeFirst (fun _ => Cut.isWithin_of_isAbove) htake
      exact ⟨left', .expansion (horder.takeFirst_eq_none hon) htake' hrange, hleft⟩
  | plain hon habove =>
      exact ⟨cuts', .plain (horder.takeFirst_eq_none hon) (horder.takeFirst_eq_none habove), horder⟩

theorem ClaimRun.reordered (h : ClaimRun cuts drilldowns axes slicer)
    (horder : Reordered cuts cuts') :
    ∃ slicer', ClaimRun cuts' drilldowns axes slicer' ∧ Reordered slicer slicer' := by
  induction h generalizing cuts' with
  | nil cuts => exact ⟨cuts', .nil cuts', horder⟩
  | cons step _ ih =>
      obtain ⟨left', step', hleft⟩ := step.reordered horder
      obtain ⟨slicer', run', hslicer⟩ := ih hleft
      exact ⟨slicer', .cons step' run', hslicer⟩

/-- Whether axes leave a cut alone: it is a named set, or none of them has taken a cut on its level. -/
def leavesCut (axes : List AxisSet) (c : Cut) : Bool :=
  c.isNamedSet || !(axes.filterMap (·.cut?)).any fun taken => taken.level? == c.level?

/-- Where no two cuts lie on one level, the axes tell which cuts are left. -/
theorem ClaimRun.slicer_eq (h : ClaimRun cuts drilldowns axes slicer)
    (hapart : cuts.Pairwise Cut.Apart) : slicer = cuts.filter (leavesCut axes) := by
  have hpairwise : (axes.filterMap (·.cut?) ++ slicer).Pairwise Cut.Apart :=
    h.perm.symm.pairwise hapart Cut.Apart.symm
  obtain ⟨-, -, hcross⟩ := List.pairwise_append.1 hpairwise
  have hplain : ∀ taken ∈ axes.filterMap (·.cut?), taken.isNamedSet = false := by
    intro taken htaken
    obtain ⟨axis, haxis, hcut⟩ := List.mem_filterMap.1 htaken
    exact h.isNamedSet_eq_false axis haxis taken hcut
  have htaken : (axes.filterMap (·.cut?)).filter (leavesCut axes) = [] := by
    rw [List.filter_eq_nil_iff]
    intro c hc
    simp only [leavesCut, hplain c hc, Bool.false_or, Bool.not_eq_true', Bool.not_eq_false]
    exact List.any_eq_true.2 ⟨c, hc, BEq.rfl⟩
  have hleft : slicer.filter (leavesCut axes) = slicer := by
    rw [List.filter_eq_self]
    intro c hc
    cases hset : c.isNamedSet with
    | true => simp [leavesCut, hset]
    | false =>
        simp only [leavesCut, hset, Bool.false_or, Bool.not_eq_true', List.any_eq_false, beq_iff_eq]
        exact fun taken htaken => hcross taken htaken c hc (hplain taken htaken) hset
  have hperm := h.perm.filter (leavesCut axes)
  rw [List.filter_append, htaken, hleft, List.nil_append] at hperm
  have hsublist := h.sublist.filter (leavesCut axes)
  rw [hleft] at hsublist
  exact hsublist.eq_of_length hperm.length_eq

end Runs

/-! ## Whole matches -/

theorem Undercut.of_perm {cuts cuts' : List Cut} {level : LevelRef × Nat} (h : Undercut cuts level)
    (hperm : cuts.Perm cuts') : Undercut cuts' level := by
  obtain ⟨c, hc, hbelow⟩ := h
  exact ⟨c, hperm.mem_iff.1 hc, hbelow⟩

theorem exists_matchCuts_of_reordered {drilldowns : List Drilldown} {cuts cuts' : List Cut}
    {plan : AxisPlan} (horder : Reordered cuts cuts') (hplan : matchCuts drilldowns cuts = .ok plan) :
    ∃ slicer', matchCuts drilldowns cuts' = .ok ⟨plan.axes, slicer'⟩ ∧
      Reordered plan.slicer slicer' := by
  obtain ⟨hduplicate, hrun, hdeeper⟩ := matchCuts_eq_ok.1 hplan
  obtain ⟨slicer', hrun', hslicer⟩ := hrun.reordered horder
  refine ⟨slicer', matchCuts_eq_ok.2 ⟨?_, hrun', ?_⟩, hslicer⟩
  · rw [duplicateCut?_eq_none_iff] at hduplicate ⊢
    exact horder.perm.pairwise hduplicate Cut.Apart.symm
  · rw [deeperCut?_eq_none_iff] at hdeeper ⊢
    exact fun level hlevel hunder => hdeeper level hlevel (hunder.of_perm hslicer.perm.symm)

/-- Cuts whose order within each hierarchy is kept match in both orders or in neither. The axes are then
the same, and the same cuts are left, each time in the order of the request. -/
theorem matchCuts_reordered (drilldowns : List Drilldown) (cuts cuts' : List Cut)
    (horder : Reordered cuts cuts') :
    ((∃ plan, matchCuts drilldowns cuts = .ok plan) ↔
      ∃ plan, matchCuts drilldowns cuts' = .ok plan) ∧
    ∀ plan plan', matchCuts drilldowns cuts = .ok plan → matchCuts drilldowns cuts' = .ok plan' →
      plan'.axes = plan.axes ∧ Reordered plan.slicer plan'.slicer ∧
        ∃ isLeft : Cut → Bool, plan.slicer = cuts.filter isLeft ∧
          plan'.slicer = cuts'.filter isLeft := by
  constructor
  · constructor
    · rintro ⟨plan, hplan⟩
      obtain ⟨slicer', hplan', -⟩ := exists_matchCuts_of_reordered horder hplan
      exact ⟨_, hplan'⟩
    · rintro ⟨plan', hplan'⟩
      obtain ⟨slicer, hplan, -⟩ := exists_matchCuts_of_reordered horder.symm hplan'
      exact ⟨_, hplan⟩
  · intro plan plan' hplan hplan'
    obtain ⟨slicer', heq, hslicer⟩ := exists_matchCuts_of_reordered horder hplan
    rw [hplan', Except.ok.injEq] at heq
    subst heq
    obtain ⟨hduplicate, hrun, -⟩ := matchCuts_eq_ok.1 hplan
    obtain ⟨hduplicate', hrun', -⟩ := matchCuts_eq_ok.1 hplan'
    rw [duplicateCut?_eq_none_iff] at hduplicate hduplicate'
    exact ⟨rfl, hslicer, leavesCut plan.axes, hrun.slicer_eq hduplicate, hrun'.slicer_eq hduplicate'⟩

/-- The state is taken and the country left in both orders; the named set changes its place. -/
theorem matchCuts_reordered_states :
    let located (hierarchy name level : String) (depth : Nat) : Located :=
      ⟨⟨[⟨.quoted, name⟩]⟩,
        { Member.ofMeasure name name name with depth, level := ⟨hierarchy, hierarchy, level⟩ }⟩
    let top : Cut := ⟨"Top", .namedSet none⟩
    let year : Cut := ⟨"[Time].[1997]", .member (located "Time" "1997" "Year" 0)⟩
    let state : Cut := ⟨"[Store].[CA]", .member (located "Store" "CA" "State" 1)⟩
    let country : Cut := ⟨"[Store].[USA]", .member (located "Store" "USA" "Country" 0)⟩
    let drilldowns : List Drilldown :=
      [⟨"Store.City", .level ⟨"Store", "Store", "City"⟩ "[Store].[City]" 2⟩,
        ⟨"Time.Year", .level ⟨"Time", "Time", "Year"⟩ "[Time].[Year]" 0⟩]
    let cuts := [top, year] ++ [state, country]
    let cuts' := [state, country] ++ [top, year]
    Reordered cuts cuts' ∧
    ∃ plan plan', matchCuts drilldowns cuts = .ok plan ∧ matchCuts drilldowns cuts' = .ok plan' ∧
      plan.slicer = [top, country] ∧ plan'.slicer = [country, top] ∧ plan'.axes = plan.axes ∧
      ∃ isLeft : Cut → Bool, plan.slicer = cuts.filter isLeft ∧ plan'.slicer = cuts'.filter isLeft := by
  intro located top year state country drilldowns cuts cuts'
  have hyear : ∀ ref, year.isNamedSet = false → year.level? = some ref →
      ∀ other ∈ [state, country], other.isWithin ref = false := by
    rintro ref - ⟨⟩
    exact List.forall_mem_cons.2 ⟨rfl, List.forall_mem_singleton.2 rfl⟩
  have hblocks : ∀ c ∈ [top, year], ∀ ref, c.isNamedSet = false → c.level? = some ref →
      ∀ other ∈ [state, country], other.isWithin ref = false :=
    List.forall_mem_cons.2 ⟨fun _ hset => (nomatch hset), List.forall_mem_singleton.2 hyear⟩
  have horder : Reordered cuts cuts' := reordered_append_comm hblocks
  let axes : List AxisSet :=
    [.expansion state ⟨"Store", "Store", "City"⟩ "[Store].[City]", .cut year]
  have hplan : matchCuts drilldowns cuts = .ok ⟨axes, [top, country]⟩ := rfl
  have hplan' : matchCuts drilldowns cuts' = .ok ⟨axes, [country, top]⟩ := rfl
  obtain ⟨-, hboth⟩ := matchCuts_reordered drilldowns cuts cuts' horder
  obtain ⟨haxes, -, hleft⟩ := hboth _ _ hplan hplan'
  exact ⟨horder, _, _, hplan, hplan', rfl, rfl, haxes, hleft⟩

end CubeQuery.Plan
