import CubeQuery.Proofs.Cube.Levels
import CubeQuery.Proofs.Plan.Matching

/-!
# Cuts that are left behind

No two cuts lie on one level, and no cut that is left lies below a drilled level. A cut that is left was
there at every turn, so each axis of its hierarchy has taken another cut, and lies below it
(`leftover_cut_above_axis`).
-/

namespace CubeQuery.Plan

/-! ## Checks that pass -/

/-- Two cuts lie on different levels, unless one is a named set. -/
def Cut.Apart (a b : Cut) : Prop :=
  a.isNamedSet = false → b.isNamedSet = false → a.level? ≠ b.level?

theorem Cut.Apart.symm {a b : Cut} (h : a.Apart b) : b.Apart a :=
  fun hb ha => (h ha hb).symm

theorem pairwise_apart_of_duplicateCut? {earlier cuts : List Cut}
    (h : duplicateCut? earlier cuts = none) :
    cuts.Pairwise Cut.Apart ∧
      ∀ c ∈ cuts, c.isNamedSet = false → ∀ e ∈ earlier, e.level? ≠ c.level? := by
  induction cuts generalizing earlier with
  | nil => simp
  | cons c rest ih =>
      rw [duplicateCut?] at h
      split at h
      · rename_i hset
        obtain ⟨hpairwise, hearlier⟩ := ih h
        refine ⟨List.pairwise_cons.2 ⟨fun b _ hc => ?_, hpairwise⟩,
          List.forall_mem_cons.2 ⟨fun hc => ?_, hearlier⟩⟩
        · simp [hset] at hc
        · simp [hset] at hc
      · split at h
        · cases h
        · rename_i hnew
          obtain ⟨hpairwise, hearlier⟩ := ih h
          refine ⟨List.pairwise_cons.2 ⟨fun b hb _ hset => ?_, hpairwise⟩,
            List.forall_mem_cons.2 ⟨fun _ e he hlevel => ?_, fun b hb hset e he => ?_⟩⟩
          · exact hearlier b hb hset c (by simp)
          · exact hnew (List.any_eq_true.2 ⟨e, he, by simpa using hlevel⟩)
          · exact hearlier b hb hset e (by simp [he])

theorem drilldownAbove?_of_deeperCut? {drilldowns : List Drilldown} {cuts : List Cut}
    (h : deeperCut? drilldowns cuts = none) : ∀ c ∈ cuts, drilldownAbove? drilldowns c = none := by
  induction cuts with
  | nil => simp
  | cons c rest ih =>
      rw [deeperCut?] at h
      split at h
      · cases h
      · rename_i habove
        exact List.forall_mem_cons.2 ⟨habove, ih h⟩

theorem isBelow_of_deeperCut? {drilldowns : List Drilldown} {cuts : List Cut}
    (h : deeperCut? drilldowns cuts = none) {c : Cut} (hc : c ∈ cuts) {d : Drilldown}
    (hd : d ∈ drilldowns) {ref : LevelRef} {uniqueName : String} {depth : Nat}
    (htarget : d.target = .level ref uniqueName depth) : c.isBelow ref depth = false := by
  have hnone := List.find?_eq_none.1 (drilldownAbove?_of_deeperCut? h c hc) d hd
  simpa [htarget] using hnone

/-! ## Turns of a run -/

/-- At its turn a drilldown finds some of the cuts, and leaves at least those that are left at the end. -/
theorem ClaimRun.turn {cuts last : List Cut} {drilldowns : List Drilldown} {axes : List AxisSet}
    (h : ClaimRun cuts drilldowns axes last) {i : Nat} {d : Drilldown}
    (hd : drilldowns[i]? = some d) :
    ∃ axis found left, axes[i]? = some axis ∧ Claims found d.target axis left ∧
      found.Sublist cuts ∧ last.Sublist left := by
  induction h generalizing i with
  | nil cuts => simp at hd
  | @cons cuts left last first rest axis axes step run ih =>
      cases i with
      | zero =>
          simp only [List.getElem?_cons_zero, Option.some.injEq] at hd
          subst hd
          exact ⟨axis, cuts, left, rfl, step, .refl _, run.sublist⟩
      | succ i =>
          simp only [List.getElem?_cons_succ] at hd ⊢
          obtain ⟨axis', found, left', haxis, hclaims, hfound, hlast⟩ := ih hd
          exact ⟨axis', found, left', haxis, hclaims, hfound.trans step.sublist, hlast⟩

/-- A cut that a drilled level leaves is not on the level, and above it only where the axis has taken
another cut. -/
theorem Claims.of_mem_left {found left : List Cut} {ref : LevelRef} {uniqueName : String} {depth : Nat}
    {axis : AxisSet} (h : Claims found (.level ref uniqueName depth) axis left)
    (hfound : found.Pairwise Cut.Apart) {c : Cut} (hc : c ∈ left) :
    c.isOn ref = false ∧
      (c.isAbove ref depth = true →
        ∃ taken, axis = .cut taken ∨ axis = .expansion taken ref uniqueName) := by
  cases h with
  | cut htake =>
      rename_i taken
      refine ⟨?_, fun _ => ⟨taken, .inl rfl⟩⟩
      by_contra hon
      rw [Bool.not_eq_false] at hon
      have hpair : (taken :: left).Pairwise Cut.Apart :=
        (takeFirst_perm htake).symm.pairwise hfound Cut.Apart.symm
      have hset : ∀ b : Cut, b.isOn ref = true → b.isNamedSet = false := by
        intro b hb
        simp only [Cut.isOn, Bool.and_eq_true, Bool.not_eq_true'] at hb
        exact hb.1
      have htaken := takeFirst_spec htake
      refine (List.pairwise_cons.1 hpair).1 c hc (hset taken htaken) (hset c hon) ?_
      rw [Cut.level?_of_isOn htaken, Cut.level?_of_isOn hon]
  | expansion hon htake hrange =>
      rename_i taken
      have hmem := (takeFirst_sublist htake).mem hc
      exact ⟨takeFirst_eq_none_iff.1 hon c hmem, fun _ => ⟨taken, .inr rfl⟩⟩
  | plain hon habove =>
      refine ⟨takeFirst_eq_none_iff.1 hon c hc, fun h => ?_⟩
      rw [takeFirst_eq_none_iff.1 habove c hc] at h
      cases h

/-! ## Depths -/

theorem Cut.depth?_of_level? {c : Cut} (hset : c.isNamedSet = false) {ref : LevelRef}
    (h : c.level? = some ref) : ∃ m ∈ c.members, m.level = ref ∧ c.depth? = some m.depth := by
  have hlevel : c.level? = c.members.head?.map (·.level) := by
    rw [Cut.level?]
    split
    · rename_i hshape
      simp [Cut.isNamedSet, hshape] at hset
    · rfl
  rw [hlevel, Option.map_eq_some_iff] at h
  obtain ⟨m, hm, href⟩ := h
  exact ⟨m, List.mem_of_head? hm, href, by rw [Cut.depth?, hm]; rfl⟩

theorem pathHierarchy_eq_ok {expression : String} {d : Dimension} {p : LevelPath} {h : Hierarchy}
    (hh : Drilldown.pathHierarchy expression d p = .ok h) : d.hierarchyOrDefault? p.hierarchy = some h := by
  rw [Drilldown.pathHierarchy] at hh
  split at hh
  · rename_i hfound
    cases hh
    exact hfound
  · cases hh

theorem mem_levels_of_pathLevel {expression : String} {h : Hierarchy} {p : LevelPath} {l : Level}
    (hl : Drilldown.pathLevel expression h p = .ok l) : l ∈ h.levels := by
  rw [Drilldown.pathLevel] at hl
  split at hl
  · split at hl
    · rename_i hfound
      cases hl
      exact (Hierarchy.level?_spec hfound).1
    · cases hl
  · split at hl
    · rename_i hfound
      cases hl
      rw [Hierarchy.defaultLevel?, Option.or_eq_some_iff] at hfound
      obtain hat | ⟨_, hhead⟩ := hfound
      · exact List.mem_of_getElem? hat
      · exact List.mem_of_head? hhead
    · cases hl

/-- The level that a drilldown lands on, and what owns it, are found under their own names, but for the
level itself, which may be a default. -/
theorem exists_level_of_resolve {cube : Cube} {expression : String} {d : Drilldown}
    (h : Drilldown.resolve cube expression = .ok d) {ref : LevelRef} {uniqueName : String} {depth : Nat}
    (htarget : d.target = .level ref uniqueName depth) :
    ∃ r : ResolvedLevel, r.ref = ref ∧ r.level.uniqueName = uniqueName ∧ r.level.depth = depth ∧
      cube.dimension? r.dimension.name = some r.dimension ∧
      r.dimension.hierarchy? r.hierarchy.name = some r.hierarchy ∧ r.level ∈ r.hierarchy.levels := by
  simp only [Drilldown.resolve] at h
  split at h
  · cases h
    cases htarget
  · obtain ⟨r, hr, h⟩ := bind_eq_ok.1 h
    cases h
    cases htarget
    refine ⟨r, rfl, rfl, rfl, ?_⟩
    obtain ⟨p, _, hr⟩ := bind_eq_ok.1 hr
    split at hr
    · cases hr
    · rename_i dimension hdimension
      obtain ⟨hierarchy, hhierarchy, hr⟩ := bind_eq_ok.1 hr
      obtain ⟨level, hlevel, hr⟩ := bind_eq_ok.1 hr
      cases hr
      refine ⟨?_, Dimension.hierarchy?_of_hierarchyOrDefault? (pathHierarchy_eq_ok hhierarchy),
        mem_levels_of_pathLevel hlevel⟩
      rw [(Cube.dimension?_spec hdimension).2, hdimension]

theorem level?_of_resolve {cube : Cube} (hcube : cube.LevelsApart) {expression : String}
    {d : Drilldown} (h : Drilldown.resolve cube expression = .ok d) {ref : LevelRef}
    {uniqueName : String} {depth : Nat} (htarget : d.target = .level ref uniqueName depth) :
    ∃ r, cube.level? ref = some r ∧ r.level.depth = depth := by
  obtain ⟨r, rfl, -, hdepth, hdimension, hhierarchy, hlevel⟩ := exists_level_of_resolve h htarget
  have hlevels := hcube r.dimension (Cube.dimension?_spec hdimension).1 r.hierarchy
    (Dimension.hierarchy?_spec hhierarchy).1
  exact ⟨r, Cube.level?_eq_some.2 ⟨hdimension, hhierarchy, hlevels.level?_name hlevel⟩, hdepth⟩

/-! ## What is left -/

/-- A cut that is left in the slicer lies above every drilled level of its hierarchy, and the axis of
that level has taken another cut. -/
theorem leftover_cut_above_axis (cube : Cube) (hcube : cube.LevelsApart) (drilldowns : List Drilldown)
    (hdrilldowns : ∀ d ∈ drilldowns, ∃ expression, Drilldown.resolve cube expression = .ok d)
    (cuts : List Cut)
    (hcuts : ∀ c ∈ cuts, ∀ m ∈ c.members, ∃ r, cube.level? m.level = some r ∧ r.level.depth = m.depth)
    (plan : AxisPlan) (hplan : matchCuts drilldowns cuts = .ok plan) :
    ∀ c ∈ plan.slicer, c.isNamedSet = false →
      ∀ (i : Nat) (d : Drilldown) (ref : LevelRef) (uniqueName : String) (depth : Nat),
        drilldowns[i]? = some d → d.target = .level ref uniqueName depth →
        c.level?.any (·.sameHierarchy ref) = true →
          (∃ k, c.depth? = some k ∧ k < depth) ∧
          ∃ taken, plan.axes[i]? = some (.cut taken) ∨
            plan.axes[i]? = some (.expansion taken ref uniqueName) := by
  intro c hc hset i d ref uniqueName depth hd htarget hsame
  obtain ⟨hduplicate, hrun, hdeeper⟩ := matchCuts_eq_ok.1 hplan
  obtain ⟨axis, found, left, haxis, hclaims, hfound, hlast⟩ := hrun.turn hd
  rw [htarget] at hclaims
  have hpairwise := (pairwise_apart_of_duplicateCut? hduplicate).1.sublist hfound
  obtain ⟨hon, habove⟩ := hclaims.of_mem_left hpairwise (hlast.mem hc)
  have hmemd : d ∈ drilldowns := List.mem_of_getElem? hd
  have hbelow := isBelow_of_deeperCut? hdeeper hc hmemd htarget
  obtain ⟨own, hown, hhierarchy⟩ := (Option.any_eq_true _ _).1 hsame
  obtain ⟨m, hm, hmlevel, hdepth⟩ := Cut.depth?_of_level? hset hown
  -- On the depth of the drilled level the cut would be on the level itself.
  have hne : m.depth ≠ depth := by
    intro heq
    obtain ⟨r, hr, hrdepth⟩ := hcuts c (hrun.sublist.mem hc) m hm
    obtain ⟨expression, hresolve⟩ := hdrilldowns d hmemd
    obtain ⟨r', hr', hrdepth'⟩ := level?_of_resolve hcube hresolve htarget
    rw [hmlevel] at hr
    have href : own = ref :=
      hcube.eq_of_depth_eq hr hr' hhierarchy (by rw [hrdepth, hrdepth', heq])
    simp [Cut.isOn, hset, hown, href] at hon
  have hle : m.depth ≤ depth := by
    rw [LevelRef.sameHierarchy_comm] at hhierarchy
    simpa [Cut.isBelow, hset, hown, hhierarchy, hdepth] using hbelow
  have hlt : m.depth < depth := by omega
  refine ⟨⟨m.depth, hdepth, hlt⟩, ?_⟩
  obtain ⟨taken, htaken⟩ := habove (by simp [Cut.isAbove, hset, hown, hhierarchy, hdepth, hlt])
  rw [haxis]
  exact ⟨taken, by simpa using htaken⟩

/-- With cities drilled, the first of two cuts above them is expanded and the other one is left. -/
theorem leftover_cut_above_axis_city :
    let levels : List Level := ["Country", "State", "City"].map fun name => ⟨name, "", "", 0, []⟩
    let store : Dimension := ⟨"Store", "", .standard, .empty, [⟨"Store", "", false, none, levels⟩]⟩
    let cube : Cube := Cube.completed ⟨"Sales", .empty, [store], [], []⟩
    let located (name level : String) (depth : Nat) : Located :=
      ⟨⟨[⟨.quoted, name⟩]⟩,
        { Member.ofMeasure name name name with depth, level := ⟨"Store", "Store", level⟩ }⟩
    let state : Cut := ⟨"[Store].[CA]", .member (located "CA" "State" 1)⟩
    let country : Cut := ⟨"[Store].[USA]", .member (located "USA" "Country" 0)⟩
    let city : Drilldown := ⟨"Store.City", .level ⟨"Store", "Store", "City"⟩ "[Store].[City]" 2⟩
    cube.LevelsApart ∧ Drilldown.resolve cube "Store.City" = .ok city ∧
      ∃ plan, matchCuts [city] [state, country] = .ok plan ∧ plan.slicer = [country] ∧
      (∃ k, country.depth? = some k ∧ k < 2) ∧
      ∃ taken, plan.axes[0]? = some (.cut taken) ∨
        plan.axes[0]? = some (.expansion taken ⟨"Store", "Store", "City"⟩ "[Store].[City]") := by
  intro levels store cube located state country city
  let plan : AxisPlan :=
    ⟨[.expansion state ⟨"Store", "Store", "City"⟩ "[Store].[City]"], [country]⟩
  have hcube : cube.LevelsApart :=
    Cube.completed_levelsApart (List.forall_mem_singleton.2 (List.forall_mem_singleton.2 (by decide)))
  have hcity : Drilldown.resolve cube "Store.City" = .ok city := by decide +kernel
  have hcuts : ∀ c ∈ [state, country], ∀ m ∈ c.members,
      ∃ r, cube.level? m.level = some r ∧ r.level.depth = m.depth :=
    List.forall_mem_cons.2 ⟨List.forall_mem_singleton.2 ⟨_, rfl, rfl⟩,
      List.forall_mem_singleton.2 (List.forall_mem_singleton.2 ⟨_, rfl, rfl⟩)⟩
  have hplan : matchCuts [city] [state, country] = .ok plan := rfl
  exact ⟨hcube, hcity, plan, hplan, rfl,
    leftover_cut_above_axis cube hcube [city] (List.forall_mem_singleton.2 ⟨"Store.City", hcity⟩)
      [state, country] hcuts plan hplan country (List.mem_singleton.2 rfl) rfl 0 city _ _ 2 rfl rfl rfl⟩

end CubeQuery.Plan
