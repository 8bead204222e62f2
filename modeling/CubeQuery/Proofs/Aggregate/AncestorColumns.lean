import CubeQuery.Proofs.Aggregate.Parents
import CubeQuery.Proofs.Catalog.Chains
import CubeQuery.Proofs.Engine.Cache
import CubeQuery.Proofs.Tidy.Pairs

/-!
# Ancestor columns

An aggregate over a catalog that asks for parents fetches the path above every member, so that each row
of its table has the key and the label of the ancestor at every shown depth, in the columns of that
depth (`rows_show_ancestors`).
-/

namespace CubeQuery

open Catalog Plan Tidy

/-! ## Cubes of a catalog -/

section CatalogSession

variable {σ : Type} {c : Catalog} {caching : Bool} {s t : SessionState σ}

/-- The kept cubes are those of the catalog. -/
def SessionState.KeepsFrom (s : SessionState σ) (c : Catalog) : Prop :=
  ∀ name cube, s.cubes.find? name = some cube →
    ∃ table, c.table? name = some table ∧ cube = table.cube.completed

theorem exists_table_of_judged {name : String} {engine : σ} {cube : Cube}
    (h : judged name ((c.engine.cube name).run engine).1 = .ok cube) :
    ∃ table, c.table? name = some table ∧ cube = table.cube.completed := by
  have hanswer : ((c.engine.cube name).run engine).1 = .ok ((c.table? name).map (·.cube)) := rfl
  rw [hanswer] at h
  cases htable : c.table? name with
  | none =>
      rw [htable] at h
      cases h
  | some table =>
      rw [htable] at h
      cases h
      exact ⟨table, rfl, rfl⟩

theorem exists_table_of_cube_run (hkeeps : caching = true → s.KeepsFrom c) {name : String}
    {cube : Cube} (hrun : (Session.cube ⟨c.engine, caching⟩ name).run s = (.ok cube, t)) :
    ∃ table, c.table? name = some table ∧ cube = table.cube.completed := by
  cases hkept : Session.kept? ⟨c.engine, caching⟩ name s with
  | some kept =>
      rw [cube_run_of_kept _ s hkept] at hrun
      cases hrun
      cases caching with
      | false => cases hkept
      | true => exact hkeeps rfl name cube hkept
  | none =>
      rw [cube_run_of_not_kept _ s hkept] at hrun
      rcases hanswer : (c.engine.cube name).run s.engine with ⟨answer, next⟩
      simp only [hanswer] at hrun
      cases hjudged : judged name answer with
      | error e =>
          rw [hjudged] at hrun
          cases hrun
      | ok given =>
          rw [hjudged] at hrun
          cases hrun
          exact exists_table_of_judged (by rw [hanswer]; exact hjudged)

/-- Whatever has happened to a session over a catalog, it keeps cubes of the catalog only. -/
theorem Session.Reaches.keepsFrom {engine : σ} {history : List Event}
    (h : Session.Reaches ⟨c.engine, caching⟩ engine history s) (hcaching : caching = true) :
    s.KeepsFrom c := by
  induction h with
  | created =>
      intro name cube hfound
      cases hfound
  | meanwhile _ _ ih => exact ih
  | cube _ hrun ih =>
      intro name cube hfound
      rw [find?_cubes_of_cube_run hcaching hrun, Option.or_eq_some_iff] at hfound
      obtain hkept | ⟨_, hgiven⟩ := hfound
      · exact ih name cube hkept
      · obtain ⟨rfl, rfl⟩ := of_answer?_eq_some hgiven
        exact exists_table_of_cube_run (fun _ => ih) hrun
  | flush _ hrun ih =>
      intro name cube hfound
      rw [cubes_of_flush_run hrun] at hfound
      split at hfound
      · cases hfound
      · exact ih name cube hfound

end CatalogSession

/-! ## Stages of an aggregate -/

section Stages

variable {σ : Type} {engine : Engine σ} {cube : Cube} {request : Request} {a : Aggregation}

theorem optionsOf_parents {q : CompiledQuery} {options : Tidy.Options}
    (h : Aggregation.optionsOf cube request q = .ok options) : options.parents = request.parents := by
  obtain ⟨properties, _, h⟩ := bind_eq_ok.1 h
  obtain ⟨captions, _, h⟩ := bind_eq_ok.1 h
  cases h
  rfl

/-- An aggregation comes from a query that compiles, its checked options and the result of its run. -/
theorem Aggregation.run_eq_ok {u v : σ} :
    (Aggregation.run engine cube request).run u = (.ok a, v) ↔
      a.cube = cube ∧ ∃ w, (Plan.compile engine cube request).run u = (.ok a.query, w) ∧
        Aggregation.optionsOf cube request a.query = .ok a.options ∧
        (Aggregation.runQuery engine cube request a.query).run w = (.ok a.result, v) := by
  rw [Aggregation.run, Action.bind_run_eq_ok]
  constructor
  · intro h
    obtain ⟨query, w, hcompile, h⟩ := h
    obtain ⟨options, w', hoptions, h⟩ := Action.bind_run_eq_ok.1 h
    obtain ⟨hparsed, rfl⟩ := Action.ofExcept_run_eq_ok.1 hoptions
    obtain ⟨result, w'', hresult, h⟩ := Action.bind_run_eq_ok.1 h
    obtain ⟨rfl, rfl⟩ := Action.pure_run_eq_ok.1 h
    exact ⟨rfl, w, hcompile, hparsed, hresult⟩
  · intro h
    obtain ⟨rfl, w, hcompile, hoptions, hresult⟩ := h
    refine ⟨a.query, w, hcompile, Action.bind_run_eq_ok.2 ?_⟩
    refine ⟨a.options, w, Action.ofExcept_run_eq_ok.2 ⟨hoptions, rfl⟩, Action.bind_run_eq_ok.2 ?_⟩
    exact ⟨a.result, v, hresult, Action.pure_run_eq_ok.2 ⟨rfl, rfl⟩⟩

theorem aggregation_run_eq_ok {u v : σ}
    (h : (Aggregation.run engine cube request).run u = (.ok a, v)) :
    a.cube = cube ∧ a.options.parents = request.parents ∧
      ∃ w, (Aggregation.runQuery engine cube request a.query).run w = (.ok a.result, v) := by
  obtain ⟨hcube, w, -, hoptions, hresult⟩ := Aggregation.run_eq_ok.1 h
  exact ⟨hcube, optionsOf_parents hoptions, w, hresult⟩

theorem runQuery_eq_ok {q : CompiledQuery} {result : CellResult} (hparents : request.parents = true)
    {u v : σ} (h : (Aggregation.runQuery engine cube request q).run u = (.ok result, v)) :
    ∃ r r' w w', (Aggregation.fetchParents engine cube.name r).run w = (.ok r', w') ∧
      result.axes = r'.axes := by
  obtain ⟨raw, w, _, h⟩ := Action.bind_run_eq_ok.1 h
  rw [if_pos hparents] at h
  obtain ⟨r', w', hfetch, h⟩ := Action.bind_run_eq_ok.1 h
  obtain ⟨rfl, rfl⟩ := Action.pure_run_eq_ok.1 h
  refine ⟨_, r', w, w', hfetch, ?_⟩
  split <;> rfl

theorem aggregate_run_eq_ok {session : Session σ} {name : String} {s t : SessionState σ}
    (h : (session.aggregate name request).run s = (.ok a, t)) :
    ∃ cube u, (session.cube name).run s = (.ok cube, u) ∧
      ∃ v, (Aggregation.run session.engine cube request).run u.engine = (.ok a, v) := by
  obtain ⟨cube, u, hcube, h⟩ := Action.bind_run_eq_ok.1 h
  rw [onEngine_run] at h
  refine ⟨cube, u, hcube, ((Aggregation.run session.engine cube request).run u.engine).2, ?_⟩
  exact Prod.ext (Prod.mk.inj h).1 rfl

end Stages

/-! ## The columns of a row -/

/-- The axis holds members of the table that lie on its level. -/
def Catalog.CubeTable.Fills (t : CubeTable) (a : ResultAxis) : Prop :=
  ∀ m ∈ a.members, a.effectiveLevel? = some m.level ∧ ∃ e ∈ t.forest.entries, e.member = m

instance (t : CubeTable) (a : ResultAxis) : Decidable (t.Fills a) :=
  inferInstanceAs (Decidable (∀ m ∈ a.members, _ ∧ ∃ e ∈ t.forest.entries, e.member = m))

section Rows

variable {t : CubeTable} {trees : List MemberTree}

theorem exists_level (hf : t.forest.WellFormed t.cube trees) (ht : t.Regular)
    {source : Cube} (hcube : t.cube = source.completed) {e : Catalog.Entry} (he : e ∈ t.forest.entries) :
    ∃ level, t.cube.level? e.member.level = some level ∧ level.level.depth = e.member.depth := by
  obtain ⟨d, h, l, hd, hh, hl, hname⟩ := hf.level e he
  have hdmem := (Cube.dimension?_spec hd).1
  have hhmem := (Dimension.hierarchy?_spec hh).1
  have hdepth : l.depth = e.member.depth := by
    rw [hcube] at hdmem
    exact Cube.depth_of_levelAt? hdmem hhmem hl
  have hfound : h.level? l.name = some l :=
    Hierarchy.level?_of_nodup (ht.levelNames d (Cube.dimension?_spec hd).1 h hhmem)
      (List.mem_of_getElem? hl)
  rw [hname] at hfound
  exact ⟨⟨d, h, l⟩, Cube.level?_eq_some.2 ⟨hd, hh, hfound⟩, hdepth⟩

theorem ancestorsOf_eq_above (hf : t.forest.WellFormed t.cube trees) (ht : t.Regular) {σ : Type}
    {c : Catalog} {cube : String} (htable : c.table? cube = some t) {place : Nat} {path : List Nat}
    (hpath : t.forest.PathAbove place path) {e : Catalog.Entry} (he : t.forest.entries[place]? = some e)
    {above : List Catalog.Entry} (habove : t.forest.EntriesAt path above) {a : ResultAxis}
    (hchain : ∀ name, e.member.parentName = some name → ∃ u v : σ,
      (Aggregation.parentChain c.engine cube name).run u = (.ok (a.ancestorsOf e.member), v)) :
    a.ancestorsOf e.member = above.map (·.member) := by
  cases hname : e.member.parentName with
  | some name =>
      obtain ⟨u, v, hrun⟩ := hchain name hname
      exact chain_eq_above hf ht htable hpath he habove hname hrun
  | none =>
      have hwalk := hpath.walk hf ht.memberNames he habove
      rw [hname, Forest.walk_iff_of_none rfl] at hwalk
      rw [hwalk, ResultAxis.ancestorsOf, hname]
      rfl

theorem pairAt_of_memberAtDepth? {r : CellResult} {cube : Cube} {options : Options} {table : Table}
    (htidy : Table.ofResult r cube options = .ok table) (hparents : options.parents = true)
    {i : Nat} {row : List Scalar} (hrow : table.rows[i]? = some row) {ordinals : List Nat}
    (hordinals : (shownOrdinals r options)[i]? = some ordinals) {position : Nat} {a : ResultAxis}
    (ha : r.drilldownAxes[position]? = some a) {level : ResolvedLevel}
    (hlevel : a.effectiveLevel?.bind cube.level? = some level) {m p : Member}
    (hm : rowMember? r ordinals position = some (a, m))
    (hp : memberAtDepth? m (a.ancestorsOf m) p.depth = some p) (hlow : firstShown level ≤ p.depth)
    (hhigh : p.depth ≤ level.level.depth) :
    table.PairAt row (keyPlace cube r.drilldownAxes position level p.depth)
      (depthTitle level.hierarchy p.depth) p.key (options.captions.label p) := by
  obtain ⟨cs, hcs, rfl⟩ := ofResult_eq_ok.1 htidy
  obtain ⟨hkey, hlabel⟩ := getElem?_columns_pair hcs hparents ha hlevel hlow hhigh
  have hvalues : row = cs.map (Column.value r options.captions ordinals) :=
    eq_of_getElem?_columnRows hrow hordinals
  constructor
  · simp [hkey, Column.title, Aspect.title]
  · simp [hlabel, Column.title, Aspect.title]
  · simp [hvalues, hkey, Column.value, hm, Aspect.of, hp]
  · simp [hvalues, hlabel, Column.value, hm, Aspect.of, hp]

end Rows

/-- In every row, for every drilldown axis and every depth shown of it, the pair of columns of that depth
has the key and the label of the only member there that the member of the row is or lies below. -/
theorem rows_show_ancestors {σ : Type} (text : String) (c : Catalog)
    (hload : Catalog.ofText text = .ok c) (caching : Bool) (engine : σ) (history : List Event)
    (s s' : SessionState σ) (hreaches : Session.Reaches ⟨c.engine, caching⟩ engine history s)
    (name : String) (request : Request) (hparents : request.parents = true) (a : Aggregation)
    (hrun : (Session.aggregate ⟨c.engine, caching⟩ name request).run s = (.ok a, s'))
    (t : CubeTable) (htable : c.table? name = some t) (hregular : t.Regular)
    (hfills : ∀ axis ∈ a.result.drilldownAxes, t.Fills axis) (table : Table)
    (htidy : a.table = .ok table) (i : Nat) (row : List Scalar) (hrow : table.rows[i]? = some row) :
    ∃ ordinals, (shownOrdinals a.result a.options)[i]? = some ordinals ∧
      ∀ (position : Nat) (axis : ResultAxis), a.result.drilldownAxes[position]? = some axis →
        ∃ place e level, t.forest.entries[place]? = some e ∧
          rowMember? a.result ordinals position = some (axis, e.member) ∧
          axis.effectiveLevel?.bind t.cube.level? = some level ∧
          ∀ depth, firstShown level ≤ depth → depth ≤ level.level.depth →
            ∃ above p, t.forest.AncestorAt place depth above p ∧
              table.PairAt row (keyPlace t.cube a.result.drilldownAxes position level depth)
                (depthTitle level.hierarchy depth) p.member.key
                (a.options.captions.label p.member) := by
  obtain ⟨hname, source, trees, hcube, hf⟩ := exists_source_of_table? hload htable
  obtain ⟨cube, u, hcubeRun, v, haggregate⟩ := aggregate_run_eq_ok hrun
  obtain ⟨hsame, hoptions, w, hquery⟩ := aggregation_run_eq_ok haggregate
  obtain ⟨r, r', w', w'', hfetch, haxes⟩ := runQuery_eq_ok hparents hquery
  -- The cube of the session is the cube of the table, which is complete already.
  have hcubeEq : cube = t.cube := by
    obtain ⟨t', htable', rfl⟩ := exists_table_of_cube_run hreaches.keepsFrom hcubeRun
    rw [htable, Option.some.injEq] at htable'
    rw [← htable', hcube, Cube.completed_completed]
  have htableName : c.table? cube.name = some t := by rw [hcubeEq, hname, htable]
  have hchains : ∀ axis ∈ a.result.drilldownAxes, ∀ m ∈ axis.members, ∀ parent,
      m.parentName = some parent → ∃ u v : σ,
        (Aggregation.parentChain c.engine cube.name parent).run u = (.ok (axis.ancestorsOf m), v) := by
    intro axis haxis m hm parent hparent
    rw [CellResult.drilldownAxes, haxes] at haxis
    exact Aggregation.chain_of_fetchParents hfetch haxis hm hparent
  have htidy' : Table.ofResult a.result t.cube a.options = .ok table := by
    rw [← hcubeEq, ← hsame]
    exact htidy
  obtain ⟨ordinals, hordinals⟩ := exists_ordinals htidy' hrow
  refine ⟨ordinals, hordinals, fun position axis haxis => ?_⟩
  have hmem := List.mem_of_getElem? haxis
  obtain ⟨m, hm, hrowMember⟩ := exists_rowMember? (List.mem_of_getElem? hordinals) haxis
  obtain ⟨heffective, e, he, rfl⟩ := hfills axis hmem m hm
  obtain ⟨level, hlevel, hdepth⟩ := exists_level hf hregular hcube he
  obtain ⟨place, hplace⟩ := List.mem_iff_getElem?.1 he
  have hresolved : axis.effectiveLevel?.bind t.cube.level? = some level := by
    rw [heffective, Option.bind_some, hlevel]
  refine ⟨place, e, level, hplace, hrowMember, hresolved, fun depth hlow hhigh => ?_⟩
  obtain ⟨path, hpath⟩ := hf.exists_pathAbove place
  obtain ⟨above, habove⟩ := hpath.exists_entries
  have hancestors : axis.ancestorsOf e.member = above.map (·.member) :=
    ancestorsOf_eq_above hf hregular htableName hpath hplace habove (hchains axis hmem e.member hm)
  obtain ⟨p, hp, rfl⟩ := hpath.exists_depth hf hplace habove (hdepth ▸ hhigh)
  obtain ⟨found, hfound⟩ := hpath.exists_ancestorAt hf hplace habove hp
  have hnodup : ((e.member :: above.map (·.member)).map (·.depth)).Nodup := by
    simpa [Function.comp_def] using hpath.nodup_depths hf hplace habove
  have hshown : memberAtDepth? e.member (axis.ancestorsOf e.member) p.member.depth =
      some p.member := by
    rw [hancestors]
    exact memberAtDepth?_eq hnodup (List.mem_map_of_mem (f := Catalog.Entry.member) hp)
  exact ⟨found, p, hfound, pairAt_of_memberAtDepth? htidy' (hoptions.trans hparents) hrow hordinals
    haxis hresolved hrowMember hshown hlow hhigh⟩

def storesText : String :=
  "\x7b\"cubes\": [\x7b\"name\": \"Sales\", \"measures\": [\x7b\"name\": \"Units\"\x7d], \"dimensions\": [\x7b\"name\": \"Store\", \"hierarchies\": [
    \x7b\"name\": \"Store\", \"has_all\": true,
     \"levels\": [\x7b\"name\": \"All\"\x7d, \x7b\"name\": \"State\"\x7d, \x7b\"name\": \"City\"\x7d]\x7d]\x7d],
    \"members\": [\x7b\"dimension\": \"Store\", \"members\": [
      \x7b\"name\": \"CA\", \"children\": [\x7b\"name\": \"Napa\"\x7d]\x7d,
      \x7b\"name\": \"OR\", \"key\": 7, \"caption\": \"Oregon\", \"children\": [\x7b\"name\": \"Salem\"\x7d]\x7d]\x7d]\x7d],
  \"results\": [\x7b\"cube\": \"Sales\",
    \"mdx\": \"SELECT \x7b[Measures].[Units]\x7d ON COLUMNS,\\n[Store].[City].Members ON ROWS\\nFROM [Sales]\",
    \"axes\": [[\"[Measures].[Units]\"], [\"[Store].[CA].[Napa]\", \"[Store].[OR].[Salem]\"]],
    \"cells\": \x7b\"dense\": [3, 5]\x7d\x7d]\x7d"

def citiesRequest : Request := { Request.empty with drilldown := ["Store.City"], parents := true }

/-- The second row begins with the key and the caption of the state above its city. -/
theorem rows_show_ancestors_salem :
    ∃ (c : Catalog) (t : CubeTable) (a : Aggregation) (table : Table),
      Catalog.ofText storesText = .ok c ∧ c.table? "Sales" = some t ∧
      ((Session.aggregate ⟨c.engine, true⟩ "Sales" citiesRequest).run (.initial ())).1 = .ok a ∧
      a.table = .ok table ∧
      ∃ row place above p, table.rows[1]? = some row ∧ row.take 2 = [.int 7, .text "Oregon"] ∧
        t.forest.AncestorAt place 1 above p ∧
        table.PairAt row 0 "State" p.member.key (a.options.captions.label p.member) := by
  have hcompute : ((Catalog.ofText storesText).toOption.any fun c => (c.table? "Sales").any fun t =>
      ((Session.aggregate ⟨c.engine, true⟩ "Sales" citiesRequest).run
        (.initial ())).1.toOption.any fun a =>
        (columns a.result a.cube a.options).toOption.any fun cs =>
          (a.result.drilldownAxes[0]?).any fun axis =>
            (axis.effectiveLevel?.bind t.cube.level?).any fun level =>
              decide (t.Regular ∧ (∀ axis ∈ a.result.drilldownAxes, t.Fills axis) ∧
                firstShown level = 1 ∧ 1 ≤ level.level.depth ∧
                depthTitle level.hierarchy 1 = "State" ∧
                (columnRows a.result a.options cs)[1]? =
                  some [.int 7, .text "Oregon", .text "Salem", .text "Salem", .int 5])) = true := by
    rw [storesText, ofText_ofList]
    decide +kernel
  simp only [Option.any_eq_true, toOption_eq_some_iff, decide_eq_true_eq] at hcompute
  obtain ⟨c, hload, t, htable, a, houtcome, cs, hcs, axis, haxis, level, hlevel, hregular, hfills,
    hfirst, hdepth, htitle, hrow⟩ := hcompute
  have htidy := ofResult_eq_ok.2 ⟨cs, hcs, rfl⟩
  obtain ⟨ordinals, hordinals, hshows⟩ := rows_show_ancestors storesText c hload true () [] _ _ .created
    "Sales" citiesRequest rfl a (Prod.ext houtcome rfl) t htable hregular hfills _ htidy 1 _ hrow
  obtain ⟨place, e, level', hplace, hmember, hlevel', hpairs⟩ := hshows 0 axis haxis
  rw [hlevel, Option.some.injEq] at hlevel'
  subst hlevel'
  obtain ⟨above, p, hancestor, hpair⟩ := hpairs 1 (by omega) hdepth
  have hkey : keyPlace t.cube a.result.drilldownAxes 0 level 1 = 0 := by
    simp [keyPlace, pairsBefore, hfirst]
  rw [hkey, htitle] at hpair
  exact ⟨c, t, a, _, hload, htable, houtcome, htidy, _, place, above, p, hrow, rfl, hancestor, hpair⟩

end CubeQuery
