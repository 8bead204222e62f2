import CubeQuery.Proofs.Aggregate.AncestorColumns
import CubeQuery.Proofs.Tidy.Properties

/-!
# Property columns of an aggregate

An aggregate over a catalog knows the path above a member only if parents are asked for. A property
of a level above the axis is then that of the ancestor there, and otherwise it is null
(`property_columns_show`).
-/

namespace CubeQuery

open Catalog Plan Tidy

/-! ## Recorded answers -/

/-- No ancestors are known. -/
def ResultAxis.Bare (a : ResultAxis) : Prop := a.parents = NameMap.empty

theorem ResultAxis.Bare.ancestorsOf {a : ResultAxis} (h : a.Bare) (m : Member) :
    a.ancestorsOf m = [] := by
  rw [ResultAxis.ancestorsOf, show a.parents = NameMap.empty from h]
  cases m.parentName <;> rfl

theorem Catalog.CubeTable.bare_of_axis {t : CubeTable} {names : List String} {a : ResultAxis}
    (h : t.axis names = .ok a) : a.Bare := by
  obtain ⟨members, _, h⟩ := bind_eq_ok.1 h
  cases h
  rfl

theorem Catalog.bare_of_answer {tables : List CubeTable} {r : RecordedResult}
    {answer : RecordedAnswer} (h : r.answer tables = .ok answer) :
    ∀ a ∈ answer.result.axes, a.Bare := by
  rw [RecordedResult.answer] at h
  split at h
  · cases h
  · obtain ⟨axes, haxes, h⟩ := bind_eq_ok.1 h
    cases h
    intro a ha
    obtain ⟨names, _, hnames⟩ := exists_of_mem_mapM haxes ha
    exact CubeTable.bare_of_axis hnames

theorem Catalog.bare_of_ofText {text : String} {c : Catalog} (hload : Catalog.ofText text = .ok c) :
    ∀ answer ∈ c.answers, ∀ a ∈ answer.result.axes, a.Bare := by
  rw [Catalog.ofText] at hload
  split at hload
  · rw [Catalog.ofJson] at hload
    split at hload
    · obtain ⟨tables, _, hload⟩ := bind_eq_ok.1 hload
      obtain ⟨answers, hanswers, hload⟩ := bind_eq_ok.1 hload
      cases hload
      intro answer hanswer
      obtain ⟨r, _, hr⟩ := exists_of_mem_mapM hanswers hanswer
      exact bare_of_answer hr
    · cases hload
  · cases hload

section Execution

variable {σ : Type} {c : Catalog} {u v : σ}

theorem Catalog.bare_of_execute_run
    (hbare : ∀ answer ∈ c.answers, ∀ a ∈ answer.result.axes, a.Bare) {cube mdx : String}
    {r : CellResult} (hrun : (c.engine.execute cube mdx).toQuery.run u = (.ok r, v)) :
    ∀ a ∈ r.axes, a.Bare := by
  have hexecute : (c.execute cube mdx).mapError QueryError.engine = .ok r := congrArg Prod.fst hrun
  rw [Catalog.execute] at hexecute
  split at hexecute
  · rename_i answer hanswer
    cases hexecute
    exact hbare answer (List.mem_of_find?_eq_some hanswer)
  · cases hexecute

theorem Aggregation.bare_of_completeLevels {axes : List ResultAxis} {levels : List (Option LevelRef)}
    (h : ∀ a ∈ axes, a.Bare) : ∀ a ∈ completeLevels axes levels, a.Bare := by
  induction axes generalizing levels with
  | nil => simp [completeLevels]
  | cons first rest ih =>
      rw [List.forall_mem_cons] at h
      cases levels with
      | nil => simpa [completeLevels] using h
      | cons level levels =>
          rw [completeLevels, List.forall_mem_cons]
          exact ⟨h.1, ih h.2⟩

/-- Filling in levels and names adds no ancestors. -/
theorem Aggregation.bare_of_completeResult {q : CompiledQuery} {r : CellResult}
    (h : ∀ a ∈ r.axes, a.Bare) : ∀ a ∈ (completeResult q r).axes, a.Bare := by
  rw [completeResult]
  split
  · exact h
  · rename_i measures drilldowns haxes
    rw [haxes, List.forall_mem_cons] at h
    rw [List.forall_mem_cons]
    exact ⟨h.1, bare_of_completeLevels h.2⟩

end Execution

/-! ## Stages -/

section Stages

variable {σ : Type} {engine : Engine σ} {cube : Cube} {request : Request} {a : Aggregation}

theorem properties_of_optionsOf {q : CompiledQuery} {options : Tidy.Options}
    (h : Aggregation.optionsOf cube request q = .ok options) :
    PropertySpec.parseAll cube (q.axisLevels.filterMap id) request.properties =
      .ok options.properties := by
  obtain ⟨properties, hproperties, h⟩ := bind_eq_ok.1 h
  obtain ⟨captions, _, h⟩ := bind_eq_ok.1 h
  cases h
  exact hproperties

/-- Without parents the axes of a result are those of the completed answer. -/
theorem runQuery_eq_ok_of_not_parents {q : CompiledQuery} {result : CellResult}
    (hparents : request.parents = false) {u v : σ}
    (h : (Aggregation.runQuery engine cube request q).run u = (.ok result, v)) :
    ∃ raw w, (engine.execute cube.name q.text).toQuery.run u = (.ok raw, w) ∧
      result.axes = (Aggregation.completeResult q raw).axes := by
  obtain ⟨raw, w, hraw, h⟩ := Action.bind_run_eq_ok.1 h
  rw [if_neg (by simp [hparents])] at h
  obtain ⟨r', w', hpure, h⟩ := Action.bind_run_eq_ok.1 h
  obtain ⟨rfl, rfl⟩ := Action.pure_run_eq_ok.1 hpure
  obtain ⟨rfl, rfl⟩ := Action.pure_run_eq_ok.1 h
  refine ⟨raw, w, hraw, ?_⟩
  split <;> rfl

end Stages

/-! ## Aggregates over a catalog -/

section Aggregates

variable {σ : Type} {text : String} {c : Catalog} {caching : Bool} {engine : σ} {history : List Event}
  {s s' : SessionState σ} {name : String} {request : Request} {a : Aggregation} {t : CubeTable}

/-- An aggregate over a catalog runs on the cube of the table. -/
theorem query_of_aggregate (hload : Catalog.ofText text = .ok c)
    (hreaches : Session.Reaches ⟨c.engine, caching⟩ engine history s)
    (hrun : (Session.aggregate ⟨c.engine, caching⟩ name request).run s = (.ok a, s'))
    (htable : c.table? name = some t) :
    a.cube = t.cube ∧ c.table? t.cube.name = some t ∧
      Aggregation.optionsOf t.cube request a.query = .ok a.options ∧
      ∃ w w' : σ,
        (Aggregation.runQuery c.engine t.cube request a.query).run w = (.ok a.result, w') := by
  obtain ⟨hname, source, trees, hcube, -⟩ := exists_source_of_table? hload htable
  obtain ⟨cube, u, hcubeRun, v, haggregate⟩ := aggregate_run_eq_ok hrun
  obtain ⟨hsame, w, -, hoptions, hquery⟩ := Aggregation.run_eq_ok.1 haggregate
  have hcubeEq : cube = t.cube := by
    obtain ⟨t', htable', rfl⟩ := exists_table_of_cube_run hreaches.keepsFrom hcubeRun
    rw [htable, Option.some.injEq] at htable'
    rw [← htable', hcube, Cube.completed_completed]
  subst hcubeEq
  exact ⟨hsame, by rw [hname, htable], hoptions, w, _, hquery⟩

/-- Above a member the whole path is known if parents are asked for, and nothing otherwise. -/
theorem ancestorsOf_of_aggregate (hload : Catalog.ofText text = .ok c)
    (hreaches : Session.Reaches ⟨c.engine, caching⟩ engine history s)
    (hrun : (Session.aggregate ⟨c.engine, caching⟩ name request).run s = (.ok a, s'))
    (htable : c.table? name = some t) (hregular : t.Regular) {axis : ResultAxis}
    (haxis : axis ∈ a.result.drilldownAxes) {place : Nat} {path : List Nat}
    (hpath : t.forest.PathAbove place path) {e : Catalog.Entry}
    (he : t.forest.entries[place]? = some e) {above : List Catalog.Entry}
    (habove : t.forest.EntriesAt path above) (hm : e.member ∈ axis.members) :
    axis.ancestorsOf e.member = if request.parents then above.map (·.member) else [] := by
  obtain ⟨-, source, trees, -, hf⟩ := exists_source_of_table? hload htable
  obtain ⟨-, htableName, -, w, w', hquery⟩ := query_of_aggregate hload hreaches hrun htable
  cases hparents : request.parents with
  | true =>
      obtain ⟨r, r', u, u', hfetch, haxes⟩ := runQuery_eq_ok hparents hquery
      rw [CellResult.drilldownAxes, haxes] at haxis
      exact ancestorsOf_eq_above hf hregular htableName hpath he habove fun parent hparent =>
        Aggregation.chain_of_fetchParents hfetch haxis hm hparent
  | false =>
      obtain ⟨raw, u, hexecute, haxes⟩ := runQuery_eq_ok_of_not_parents hparents hquery
      rw [CellResult.drilldownAxes, haxes] at haxis
      have hbare : ∀ b ∈ raw.axes, b.Bare :=
        Catalog.bare_of_execute_run (bare_of_ofText hload) hexecute
      have haxisBare : axis.Bare :=
        Aggregation.bare_of_completeResult hbare axis (List.mem_of_mem_drop haxis)
      exact haxisBare.ancestorsOf e.member

end Aggregates

/-! ## The value of a property -/

theorem property_values {t : CubeTable} {trees : List MemberTree}
    (hf : t.forest.WellFormed t.cube trees) (hregular : t.Regular) {source : Cube}
    (hcube : t.cube = source.completed) {place : Nat} {path : List Nat}
    (hpath : t.forest.PathAbove place path) {e : Catalog.Entry}
    (he : t.forest.entries[place]? = some e) {above : List Catalog.Entry}
    (habove : t.forest.EntriesAt path above) {spec : PropertySpec} {declared : ResolvedLevel}
    (hdeclared : t.cube.level? spec.level = some declared)
    (hsame : e.member.level.sameHierarchy spec.level = true)
    (hle : declared.level.depth ≤ e.member.depth) :
    ∃ found p, t.forest.AncestorAt place declared.level.depth found p ∧ p.member.level = spec.level ∧
      spec.valueFor e.member (above.map (·.member)) = (p.member.property? spec.property).getD .null ∧
      spec.valueFor e.member [] = if declared.level.depth = e.member.depth then
        (p.member.property? spec.property).getD .null else .null := by
  have hlevels : t.cube.LevelsApart := by
    have hcompleted := Cube.completed_levelsApart hregular.levelNames
    rwa [hcube, Cube.completed_completed, ← hcube] at hcompleted
  have hresolves : ∀ q ∈ e :: above, ∃ level, t.cube.level? q.member.level = some level ∧
      level.level.depth = q.member.depth := by
    intro q hq
    obtain ⟨found, hfound⟩ := hpath.exists_ancestorAt hf he habove hq
    exact exists_level hf hregular hcube (List.mem_of_getElem? hfound.entry)
  -- On the path a member lies on the level just when it lies at its depth.
  have hlevel_iff : ∀ q ∈ e :: above,
      q.member.level = spec.level ↔ q.member.depth = declared.level.depth := by
    intro q hq
    obtain ⟨level, hlevel, hdepth⟩ := hresolves q hq
    constructor
    · intro hq
      rw [hq, hdeclared, Option.some.injEq] at hlevel
      rw [hlevel, hdepth]
    · intro hq'
      refine hlevels.eq_of_depth_eq hlevel hdeclared ?_ (hdepth.trans hq')
      obtain ⟨hdimension, hhierarchy⟩ := hpath.sameHierarchy hf he habove q hq
      simpa only [LevelRef.sameHierarchy, hdimension, hhierarchy] using hsame
  have hnodup : ((e.member :: above.map (·.member)).map (·.depth)).Nodup := by
    simpa [Function.comp_def] using hpath.nodup_depths hf he habove
  obtain ⟨p, hp, hdepth⟩ := hpath.exists_depth hf he habove hle
  obtain ⟨found, hfound⟩ := hpath.exists_ancestorAt hf he habove hp
  have hplevel : p.member.level = spec.level := (hlevel_iff p hp).2 hdepth
  refine ⟨found, p, hdepth ▸ hfound, hplevel, ?_, ?_⟩
  · have hmem : p.member ∈ e.member :: above.map (·.member) :=
      List.mem_map_of_mem (f := Catalog.Entry.member) hp
    refine PropertySpec.valueFor_eq hnodup hmem hplevel fun other hother hlevel => ?_
    obtain ⟨q, hq, rfl⟩ := List.mem_map.1 (show other ∈ (e :: above).map (·.member) from hother)
    rw [(hlevel_iff q hq).1 hlevel, hdepth]
  · by_cases hown : declared.level.depth = e.member.depth
    · have hsame : p.member = e.member :=
        List.inj_on_of_nodup_map hnodup (List.mem_map_of_mem (f := Catalog.Entry.member) hp)
          List.mem_cons_self (hdepth.trans hown)
      rw [if_pos hown, ← hsame]
      exact PropertySpec.valueFor_eq_of_find? (List.find?_cons_of_pos (by simpa using hplevel))
    · have hother : e.member.level ≠ spec.level := fun hlevel =>
        hown ((hlevel_iff e List.mem_cons_self).1 hlevel).symm
      rw [if_neg hown, PropertySpec.valueFor, List.find?_cons_of_neg (by simpa using hother)]
      rfl

/-- In every row the column of a requested property shows the member of the row on the axis of its
hierarchy, if the level of the property is not below it: the value is that of the only member on that
level that the member is or lies below, where parents are asked for or the level is that of the axis,
and null otherwise. -/
theorem property_columns_show {σ : Type} (text : String) (c : Catalog)
    (hload : Catalog.ofText text = .ok c) (caching : Bool) (engine : σ) (history : List Event)
    (s s' : SessionState σ) (hreaches : Session.Reaches ⟨c.engine, caching⟩ engine history s)
    (name : String) (request : Request) (a : Aggregation)
    (hrun : (Session.aggregate ⟨c.engine, caching⟩ name request).run s = (.ok a, s'))
    (t : CubeTable) (htable : c.table? name = some t) (hregular : t.Regular)
    (hfills : ∀ axis ∈ a.result.drilldownAxes, t.Fills axis) (table : Table)
    (htidy : a.table = .ok table) (i : Nat) (row : List Scalar) (hrow : table.rows[i]? = some row) :
    ∃ ordinals, (shownOrdinals a.result a.options)[i]? = some ordinals ∧
      ∀ j requested, request.properties[j]? = some requested →
        ∃ spec declared,
          PropertySpec.parse t.cube (a.query.axisLevels.filterMap id) requested = .ok spec ∧
          t.cube.level? spec.level = some declared ∧
          table.header[propertyPlace a.result a.options table + j]? = some spec.title ∧
          ∃ position axis place e level, a.result.drilldownAxes[position]? = some axis ∧
            t.forest.entries[place]? = some e ∧
            rowMember? a.result ordinals position = some (axis, e.member) ∧
            axis.effectiveLevel? = some e.member.level ∧
            e.member.level.sameHierarchy spec.level = true ∧
            t.cube.level? e.member.level = some level ∧
            (declared.level.depth ≤ level.level.depth →
              ∃ above p, t.forest.AncestorAt place declared.level.depth above p ∧
                p.member.level = spec.level ∧
                row[propertyPlace a.result a.options table + j]? = some
                  (if request.parents = true ∨ declared.level.depth = level.level.depth then
                    (p.member.property? spec.property).getD .null else .null)) := by
  obtain ⟨-, source, trees, hcube, hf⟩ := exists_source_of_table? hload htable
  obtain ⟨hsameCube, -, hoptions, -⟩ := query_of_aggregate hload hreaches hrun htable
  have htidy' : Table.ofResult a.result t.cube a.options = .ok table := by
    rw [← hsameCube]
    exact htidy
  obtain ⟨ordinals, hordinals⟩ := exists_ordinals htidy' hrow
  refine ⟨ordinals, hordinals, fun j requested hrequested => ?_⟩
  have hproperties := properties_of_optionsOf hoptions
  obtain ⟨spec, hspec, hparse⟩ := exists_of_getElem?_mapM hproperties hrequested
  obtain ⟨declared, hdeclared⟩ := PropertySpec.level?_of_parse hparse
  obtain ⟨position, axis, haxis, hhierarchy, htitle, hvalue⟩ :=
    property_column htidy' hrow hordinals hspec
  have hmem := List.mem_of_getElem? haxis
  obtain ⟨m, hm, hrowMember⟩ := exists_rowMember? (List.mem_of_getElem? hordinals) haxis
  obtain ⟨heffective, e, he, rfl⟩ := hfills axis hmem m hm
  obtain ⟨level, hlevel, hdepth⟩ := exists_level hf hregular hcube he
  obtain ⟨place, hplace⟩ := List.mem_iff_getElem?.1 he
  have hsame : e.member.level.sameHierarchy spec.level = true := by
    rwa [heffective, Option.any_some] at hhierarchy
  refine ⟨spec, declared, hparse, hdeclared, htitle, position, axis, place, e, level, haxis, hplace,
    hrowMember, heffective, hsame, hlevel, fun hle => ?_⟩
  obtain ⟨path, hpath⟩ := hf.exists_pathAbove place
  obtain ⟨above, habove⟩ := hpath.exists_entries
  obtain ⟨found, p, hfound, hplevel, hknown, hbare⟩ :=
    property_values hf hregular hcube hpath hplace habove hdeclared hsame (hdepth ▸ hle)
  refine ⟨found, p, hfound, hplevel, ?_⟩
  have hancestors :=
    ancestorsOf_of_aggregate hload hreaches hrun htable hregular hmem hpath hplace habove hm
  rw [hvalue e.member hrowMember, hancestors, hdepth]
  cases hparents : request.parents with
  | true => rw [if_pos rfl, hknown, if_pos (.inl rfl)]
  | false =>
      have hiff : (false = true ∨ declared.level.depth = e.member.depth) ↔
          declared.level.depth = e.member.depth := by simp
      rw [if_neg Bool.false_ne_true, hbare, if_congr hiff rfl rfl]

def governorsText : String :=
  "\x7b\"cubes\": [\x7b\"name\": \"Sales\", \"measures\": [\x7b\"name\": \"Units\"\x7d], \"dimensions\": [\x7b\"name\": \"Store\", \"hierarchies\": [
    \x7b\"name\": \"Store\", \"has_all\": true,
     \"levels\": [\x7b\"name\": \"All\"\x7d, \x7b\"name\": \"State\", \"properties\": [\"Governor\"]\x7d, \x7b\"name\": \"City\"\x7d]\x7d]\x7d],
    \"members\": [\x7b\"dimension\": \"Store\", \"members\": [
      \x7b\"name\": \"CA\", \"properties\": \x7b\"Governor\": \"Ann\"\x7d, \"children\": [\x7b\"name\": \"Napa\"\x7d]\x7d,
      \x7b\"name\": \"OR\", \"properties\": \x7b\"Governor\": \"Bob\"\x7d, \"children\": [\x7b\"name\": \"Salem\"\x7d]\x7d]\x7d]\x7d],
  \"results\": [\x7b\"cube\": \"Sales\",
    \"mdx\": \"SELECT \x7b[Measures].[Units]\x7d ON COLUMNS,\\n[Store].[City].Members ON ROWS\\nFROM [Sales]\",
    \"axes\": [[\"[Measures].[Units]\"], [\"[Store].[CA].[Napa]\", \"[Store].[OR].[Salem]\"]],
    \"cells\": \x7b\"dense\": [3, 5]\x7d\x7d]\x7d"

def governorsRequest (parents : Bool) : Request :=
  { Request.empty with drilldown := ["Store.City"], properties := ["Store.State.Governor"], parents }

/-- With parents the second row has the governor of the state above its city. -/
theorem property_columns_show_governor :
    ∃ (c : Catalog) (t : CubeTable) (a : Aggregation) (table : Table),
      Catalog.ofText governorsText = .ok c ∧ c.table? "Sales" = some t ∧
      ((Session.aggregate ⟨c.engine, true⟩ "Sales" (governorsRequest true)).run (.initial ())).1 = .ok a ∧
      a.table = .ok table ∧
      ∃ row place above p, table.rows[1]? = some row ∧ t.forest.AncestorAt place 1 above p ∧
        p.member.level = ⟨"Store", "Store", "State"⟩ ∧
        row[4]? = some ((p.member.property? "Governor").getD .null) := by
  have hcompute : ((Catalog.ofText governorsText).toOption.any fun c => (c.table? "Sales").any fun t =>
      ((Session.aggregate ⟨c.engine, true⟩ "Sales" (governorsRequest true)).run
        (.initial ())).1.toOption.any fun a =>
        (columns a.result a.cube a.options).toOption.any fun cs =>
          decide (t.Regular ∧ (∀ axis ∈ a.result.drilldownAxes, t.Fills axis) ∧
            cs.length - a.result.measures.length - a.options.properties.length = 4 ∧
            (columnRows a.result a.options cs).length = 2 ∧
            PropertySpec.parse t.cube (a.query.axisLevels.filterMap id) "Store.State.Governor" =
              .ok ⟨⟨"Store", "Store", "State"⟩, "Governor"⟩ ∧
            (t.cube.level? ⟨"Store", "Store", "State"⟩).map (·.level.depth) = some 1 ∧
            ∀ axis ∈ a.result.drilldownAxes,
              (axis.effectiveLevel?.bind t.cube.level?).map (·.level.depth) = some 2)) = true := by
    rw [governorsText, ofText_ofList]
    decide +kernel
  simp only [Option.any_eq_true, toOption_eq_some_iff, decide_eq_true_eq] at hcompute
  obtain ⟨c, hload, t, htable, a, houtcome, cs, hcs, hregular, hfills, hplace, hlength, hparse,
    hdeclared, haxes⟩ := hcompute
  have htidy := ofResult_eq_ok.2 ⟨cs, hcs, rfl⟩
  obtain ⟨row, hrow⟩ : ∃ row, (columnRows a.result a.options cs)[1]? = some row :=
    ⟨_, List.getElem?_eq_getElem (by omega)⟩
  obtain ⟨_, _, hshows⟩ := property_columns_show governorsText c hload true () [] _ _ .created "Sales"
    (governorsRequest true) a (Prod.ext houtcome rfl) t htable hregular hfills _ htidy 1 row hrow
  obtain ⟨spec, declared, hspec, hlevel, -, position, axis, place, e, level, haxis, -, -, heffective,
    -, hown, hvalue⟩ := hshows 0 "Store.State.Governor" rfl
  obtain rfl : ⟨⟨"Store", "Store", "State"⟩, "Governor"⟩ = spec :=
    Except.ok.inj (hparse.symm.trans hspec)
  have hone : declared.level.depth = 1 := by simpa [hlevel] using hdeclared
  have htwo : level.level.depth = 2 := by
    simpa [heffective, hown] using haxes axis (List.mem_of_getElem? haxis)
  obtain ⟨above, p, hancestor, hplevel, hgovernor⟩ := hvalue (by omega)
  have hknown : (governorsRequest true).parents = true ∨
      declared.level.depth = level.level.depth := .inl rfl
  rw [if_pos hknown, propertyPlace, List.length_map, Nat.add_zero, hplace] at hgovernor
  exact ⟨c, t, a, _, hload, htable, houtcome, htidy, row, place, above, p, hrow, hone ▸ hancestor,
    hplevel, hgovernor⟩

/-- Without parents the first row has no governor, though the state above its city has one. -/
theorem null_property_without_parents :
    ∃ (c : Catalog) (t : CubeTable) (a : Aggregation) (table : Table),
      Catalog.ofText governorsText = .ok c ∧ c.table? "Sales" = some t ∧
      ((Session.aggregate ⟨c.engine, true⟩ "Sales" (governorsRequest false)).run (.initial ())).1 = .ok a ∧
      a.table = .ok table ∧ t.Regular ∧ (∀ axis ∈ a.result.drilldownAxes, t.Fills axis) ∧
      table.header = ["ID City", "City", "Governor", "Units"] ∧
      table.rows[0]? = some [.text "Napa", .text "Napa", .null, .int 3] ∧
      ∃ axis city state, rowMember? a.result [0] 0 = some (axis, city) ∧
        city.parentName.bind t.forest.named? = some state ∧
        state.level = ⟨"Store", "Store", "State"⟩ ∧
        state.property? "Governor" = some (.text "Ann") := by
  have hcompute : ((Catalog.ofText governorsText).toOption.any fun c => (c.table? "Sales").any fun t =>
      ((Session.aggregate ⟨c.engine, true⟩ "Sales" (governorsRequest false)).run
        (.initial ())).1.toOption.any fun a =>
        (columns a.result a.cube a.options).toOption.any fun cs =>
          (rowMember? a.result [0] 0).any fun shown =>
            (shown.2.parentName.bind t.forest.named?).any fun state =>
              decide (t.Regular ∧ (∀ axis ∈ a.result.drilldownAxes, t.Fills axis) ∧
                cs.map (·.title) = ["ID City", "City", "Governor", "Units"] ∧
                (columnRows a.result a.options cs)[0]? =
                  some [.text "Napa", .text "Napa", .null, .int 3] ∧
                state.level = ⟨"Store", "Store", "State"⟩ ∧
                state.property? "Governor" = some (.text "Ann"))) = true := by
    rw [governorsText, ofText_ofList]
    decide +kernel
  simp only [Option.any_eq_true, toOption_eq_some_iff, decide_eq_true_eq] at hcompute
  obtain ⟨c, hload, t, htable, a, houtcome, cs, hcs, ⟨axis, city⟩, hcity, state, hstate, hregular,
    hfills, hheader, hrow, hlevel, hgovernor⟩ := hcompute
  have htidy := ofResult_eq_ok.2 ⟨cs, hcs, rfl⟩
  exact ⟨c, t, a, _, hload, htable, houtcome, htidy, hregular, hfills, hheader, hrow, axis, city,
    state, hcity, hstate, hlevel, hgovernor⟩

end CubeQuery
