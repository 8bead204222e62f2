import CubeQuery.Proofs.Aggregate.PropertyColumns
import CubeQuery.Proofs.Aggregate.Trace
import CubeQuery.Proofs.Plan.Compile

/-!
# Accepted properties

A property is accepted on the levels of the compiled axes, before anything is executed, and its column is
made on the levels of the axes of the result. If the result has an axis for every drilldown and leaves
their levels to the query, each accepted property has an axis there and the table can be made
(`accepted_request_flattens`).
-/

namespace CubeQuery

open CubeQuery.Action Plan Tidy

/-! ## Accepted levels -/

theorem Tidy.PropertySpec.sameHierarchy_of_parse {cube : Cube} {drilled : List LevelRef}
    {text : String} {spec : PropertySpec} (h : PropertySpec.parse cube drilled text = .ok spec) :
    ∃ level ∈ drilled, level.sameHierarchy spec.level = true := by
  unfold PropertySpec.parse at h
  split at h
  · cases h
  · split at h
    · cases h
    · split at h
      · rename_i hany
        cases h
        exact List.any_eq_true.1 hany
      · cases h

theorem Tidy.exists_propertyColumn {axes : List ResultAxis} {spec : PropertySpec} {a : ResultAxis}
    (ha : a ∈ axes) (hsame : a.effectiveLevel?.any (·.sameHierarchy spec.level) = true) :
    ∃ c, propertyColumn axes spec = .ok c := by
  have hsome : (axes.findIdx? fun a => a.effectiveLevel?.any (·.sameHierarchy spec.level)).isSome =
      true := by
    rw [List.findIdx?_isSome, List.any_eq_true]
    exact ⟨a, ha, hsame⟩
  obtain ⟨position, hposition⟩ := Option.isSome_iff_exists.1 hsome
  exact ⟨.member position (.property spec), by rw [propertyColumn, hposition]⟩

/-- If every requested property has an axis of its hierarchy, there is a table. -/
theorem Tidy.exists_table {r : CellResult} {options : Options} (cube : Cube)
    (h : ∀ spec ∈ options.properties, ∃ a ∈ r.drilldownAxes,
      a.effectiveLevel?.any (·.sameHierarchy spec.level) = true) :
    ∃ t, Table.ofResult r cube options = .ok t := by
  have hcolumns : ∃ properties, options.properties.mapM (propertyColumn r.drilldownAxes) =
      .ok properties := by
    apply exists_mapM_eq_ok
    intro spec hspec
    obtain ⟨a, ha, hsame⟩ := h spec hspec
    exact exists_propertyColumn ha hsame
  obtain ⟨properties, hproperties⟩ := hcolumns
  exact ⟨_, ofResult_eq_ok.2 ⟨_, bind_eq_ok.2 ⟨properties, hproperties, rfl⟩, rfl⟩⟩

/-! ## Axes of a completed result -/

namespace Aggregation

theorem getElem?_completeLevels {axes : List ResultAxis} {levels : List (Option LevelRef)} {i : Nat}
    {a : ResultAxis} {level : Option LevelRef} (ha : axes[i]? = some a) (hlevel : levels[i]? = some level) :
    (completeLevels axes levels)[i]? = some { a with level := a.level.or level } := by
  induction axes generalizing levels i with
  | nil => simp at ha
  | cons first rest ih =>
      cases levels with
      | nil => simp at hlevel
      | cons next levels =>
          cases i with
          | zero =>
              cases ha
              cases hlevel
              rfl
          | succ i => exact ih ha hlevel

theorem drilldownAxes_completeResult (q : CompiledQuery) (r : CellResult) :
    (completeResult q r).drilldownAxes = completeLevels r.drilldownAxes q.axisLevels := by
  unfold completeResult CellResult.drilldownAxes
  cases haxes : r.axes with
  | nil => simp [haxes, completeLevels]
  | cons measures drilldowns => rfl

/-- Axes without levels of their own get the levels of the drilldowns. -/
theorem exists_axis_of_level {q : CompiledQuery} {r : CellResult}
    (hlength : q.axisLevels.length ≤ r.drilldownAxes.length)
    (hlevels : ∀ a ∈ r.drilldownAxes, a.level = none) {level : LevelRef}
    (hlevel : level ∈ q.axisLevels.filterMap id) :
    ∃ a ∈ (completeResult q r).drilldownAxes, a.effectiveLevel? = some level := by
  have hmem : some level ∈ q.axisLevels := by simpa using hlevel
  obtain ⟨i, hi⟩ := List.mem_iff_getElem?.1 hmem
  have hlt : i < r.drilldownAxes.length := by
    have hlt := (List.getElem?_eq_some_iff.1 hi).1
    omega
  have haxis := getElem?_completeLevels (List.getElem?_eq_getElem hlt) hi
  have hnone := hlevels _ (List.getElem_mem hlt)
  rw [drilldownAxes_completeResult]
  refine ⟨_, List.mem_of_getElem? haxis, ?_⟩
  simp [ResultAxis.effectiveLevel?, hnone]

section Stages

variable {σ : Type} {engine : Engine σ} {cube : Cube} {r : Request} {q : CompiledQuery}

theorem drilldownAxes_of_debug (debug : Bool) (result : CellResult) (mdx : Option String) :
    (if debug = true then { result with mdx } else result).drilldownAxes = result.drilldownAxes := by
  split <;> rfl

theorem effectiveLevels_of_fetchParents {cube : String} {result fetched : CellResult} {s t : σ}
    (h : (fetchParents engine cube result).run s = (.ok fetched, t)) :
    fetched.drilldownAxes.map (·.effectiveLevel?) = result.drilldownAxes.map (·.effectiveLevel?) := by
  obtain ⟨chains, -, rfl⟩ := fetchParents_run_eq_ok.1 h
  have haxes : (result.axes.take 1 ++
      result.drilldownAxes.map (withParents ((parentNames result).zip chains))).drop 1 =
        result.drilldownAxes.map (withParents ((parentNames result).zip chains)) :=
    drop_take_append_map _ result.axes
  show List.map _ (List.drop 1 (_ ++ _)) = _
  rw [haxes, List.map_map]
  rfl

/-- Asking for parents leaves the levels of the axes alone. -/
theorem effectiveLevels_of_complete {raw result : CellResult} {s t : σ}
    (h : (complete engine cube r q raw).run s = (.ok result, t)) :
    result.drilldownAxes.map (·.effectiveLevel?) =
      (completeResult q raw).drilldownAxes.map (·.effectiveLevel?) := by
  rw [complete] at h
  by_cases hparents : r.parents = true
  · rw [if_pos hparents] at h
    obtain ⟨fetched, u, hfetched, h⟩ := bind_run_eq_ok.1 h
    obtain ⟨rfl, -⟩ := pure_run_eq_ok.1 h
    rw [drilldownAxes_of_debug, effectiveLevels_of_fetchParents hfetched]
  · rw [if_neg hparents] at h
    obtain ⟨fetched, u, hfetched, h⟩ := bind_run_eq_ok.1 h
    obtain ⟨rfl, -⟩ := pure_run_eq_ok.1 hfetched
    obtain ⟨rfl, -⟩ := pure_run_eq_ok.1 h
    rw [drilldownAxes_of_debug]

/-- The stages of a request on a cube that succeeds. -/
theorem stages_of_run {a : Aggregation} {s v : σ} (h : (run engine cube r).run s = (.ok a, v)) :
    a.cube = cube ∧ optionsOf cube r a.query = .ok a.options ∧
      ∃ t, Validated engine cube r s a.query t ∧
        ∃ raw u, (engine.execute cube.name a.query.text).run t = (.ok raw, u) ∧
          (complete engine cube r a.query raw).run u = (.ok a.result, v) := by
  obtain ⟨hcube, t, hcompile, hoptions, hquery⟩ := Aggregation.run_eq_ok.1 h
  rw [runQuery_eq, bind_run_eq_ok] at hquery
  obtain ⟨raw, u, hraw, hcomplete⟩ := hquery
  obtain ⟨hproperties, hcaptions⟩ := exists_optionsOf_iff.1 ⟨a.options, hoptions⟩
  exact ⟨hcube, hoptions, t, ⟨hcompile, hproperties, hcaptions⟩, raw, u, toQuery_run_eq_ok.1 hraw,
    hcomplete⟩

end Stages

end Aggregation

/-- After a request that succeeds, let the result that the engine gave for the compiled text have an axis
for every drilldown, and no levels of its own. Then every accepted property has an axis of its hierarchy,
and there is a table. -/
theorem accepted_request_flattens {σ : Type} (session : Session σ) (name : String) (r : Request)
    (s s' : SessionState σ) (a : Aggregation)
    (hrun : (session.aggregate name r).run s = (.ok a, s')) :
    ∃ t raw u, session.Validates name r s a.cube a.query t ∧
      (session.engine.execute a.cube.name a.query.text).run t = (.ok raw, u) ∧
      (r.drilldown.length ≤ raw.drilldownAxes.length →
        (∀ axis ∈ raw.drilldownAxes, axis.level = none) →
          (∀ spec ∈ a.options.properties, ∃ axis ∈ a.result.drilldownAxes,
            axis.effectiveLevel?.any (·.sameHierarchy spec.level) = true) ∧
          ∃ table, a.table = .ok table) := by
  obtain ⟨cube, u, hcube, v, haggregate⟩ := aggregate_run_eq_ok hrun
  obtain ⟨rfl, hoptions, t, hvalidated, raw, w, hraw, hcomplete⟩ :=
    Aggregation.stages_of_run haggregate
  refine ⟨t, raw, w, ⟨u, hcube, hvalidated⟩, hraw, fun hlength hlevels => ?_⟩
  have hproperties := properties_of_optionsOf hoptions
  have heffective := Aggregation.effectiveLevels_of_complete hcomplete
  have hfinds : ∀ spec ∈ a.options.properties, ∃ axis ∈ a.result.drilldownAxes,
      axis.effectiveLevel?.any (·.sameHierarchy spec.level) = true := by
    intro spec hspec
    obtain ⟨text, -, hparse⟩ := exists_of_mem_mapM hproperties hspec
    obtain ⟨level, hlevel, hsame⟩ := PropertySpec.sameHierarchy_of_parse hparse
    rw [← length_axisLevels_of_compile hvalidated.compiled] at hlength
    obtain ⟨completed, hcompleted, heq⟩ := Aggregation.exists_axis_of_level hlength hlevels hlevel
    have hmem : some level ∈ a.result.drilldownAxes.map (·.effectiveLevel?) := by
      rw [heffective, ← heq]
      exact List.mem_map_of_mem hcompleted
    obtain ⟨axis, haxis, haxisLevel⟩ := List.mem_map.1 hmem
    exact ⟨axis, haxis, by rw [haxisLevel, Option.any_some, hsame]⟩
  exact ⟨hfinds, exists_table a.cube hfinds⟩

/-- A catalog leaves the levels out; the governors of its states are accepted and shown. -/
theorem accepted_request_flattens_governor :
    ∃ (c : Catalog) (a : Aggregation) (raw : CellResult),
      Catalog.ofText governorsText = .ok c ∧
      ((Session.aggregate ⟨c.engine, true⟩ "Sales" (governorsRequest true)).run (.initial ())).1 = .ok a ∧
      c.execute a.cube.name a.query.text = .ok raw ∧
      (governorsRequest true).drilldown.length ≤ raw.drilldownAxes.length ∧
      (∀ axis ∈ raw.drilldownAxes, axis.level = none) ∧ a.options.properties.length = 1 ∧
      (∀ spec ∈ a.options.properties, ∃ axis ∈ a.result.drilldownAxes,
        axis.effectiveLevel?.any (·.sameHierarchy spec.level) = true) ∧
      ∃ table, a.table = .ok table := by
  have hcompute : ((Catalog.ofText governorsText).toOption.any fun c =>
      ((Session.aggregate ⟨c.engine, true⟩ "Sales" (governorsRequest true)).run
        (.initial ())).1.toOption.any fun a =>
        (c.execute a.cube.name a.query.text).toOption.any fun raw =>
          decide (raw.drilldownAxes.length = 1 ∧ (∀ axis ∈ raw.drilldownAxes, axis.level = none) ∧
            a.options.properties.length = 1)) = true := by
    rw [governorsText, Catalog.ofText_ofList]
    decide +kernel
  simp only [Option.any_eq_true, toOption_eq_some_iff, decide_eq_true_eq] at hcompute
  obtain ⟨c, hload, a, houtcome, raw, hraw, hlength, hlevels, hproperties⟩ := hcompute
  obtain ⟨t, answer, u, -, hanswer, hflattens⟩ := accepted_request_flattens ⟨c.engine, true⟩ "Sales"
    (governorsRequest true) (.initial ()) _ a (Prod.ext houtcome rfl)
  obtain rfl : raw = answer := Except.ok.inj (hraw.symm.trans (congrArg Prod.fst hanswer))
  have henough : (governorsRequest true).drilldown.length ≤ raw.drilldownAxes.length := by
    rw [hlength]
    exact Nat.le_refl 1
  obtain ⟨hfinds, htable⟩ := hflattens henough hlevels
  exact ⟨c, a, raw, hload, houtcome, hraw, henough, hlevels, hproperties, hfinds, htable⟩

end CubeQuery
