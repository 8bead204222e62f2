import CubeQuery.Proofs.Plan.Measures
import CubeQuery.Proofs.Tidy.OwnPairs
import CubeQuery.Proofs.Tidy.Subset

/-!
# The window of a request

A compiled query carries the window of its request once: as a `SUBSET` around the set of its only axis,
or else as the window on rows, with no `SUBSET` in the query. Both ways show the same rows
(`pagination_agrees`).
-/

namespace CubeQuery

namespace Mdx

/-! ## Subsets in a query -/

mutual

def Fragment.calls (function : String) : Fragment → Nat
  | .identifier _ => 0
  | .braces items => listCalls function items
  | .parens items => listCalls function items
  | .range low high => low.calls function + high.calls function
  | .call name arguments => (if name = function then 1 else 0) + listCalls function arguments

def Fragment.listCalls (function : String) : List Fragment → Nat
  | [] => 0
  | f :: rest => f.calls function + listCalls function rest

end

mutual

/-- How often a set cuts a window out of another one. -/
def SetExpr.subsets : SetExpr → Nat
  | .levelMembers _ | .member _ | .namedSet _ => 0
  | .fragment f => f.calls "SUBSET"
  | .set items => listSubsets items
  | .descendants root _ => root.subsets
  | .crossJoin sets => listSubsets sets
  | .order base _ _ => base.subsets
  | .subset base _ _ => base.subsets + 1
  | .distinct base => base.subsets

def SetExpr.listSubsets : List SetExpr → Nat
  | [] => 0
  | s :: rest => s.subsets + listSubsets rest

end

/-- How often the axes and the slicer of a query cut a window out of a set. -/
def Query.subsets (q : Query) : Nat :=
  SetExpr.listSubsets (q.axes.map (·.set)) + SetExpr.listSubsets q.slicer

theorem Fragment.listCalls_eq_zero {function : String} {items : List Fragment}
    (h : ∀ f ∈ items, f.calls function = 0) : Fragment.listCalls function items = 0 := by
  induction items with
  | nil => rfl
  | cons f rest ih =>
      rw [Fragment.listCalls, h f List.mem_cons_self,
        ih fun g hg => h g (List.mem_cons_of_mem f hg)]

theorem SetExpr.listSubsets_eq_zero {sets : List SetExpr} (h : ∀ s ∈ sets, s.subsets = 0) :
    SetExpr.listSubsets sets = 0 := by
  induction sets with
  | nil => rfl
  | cons s rest ih =>
      rw [SetExpr.listSubsets, h s List.mem_cons_self,
        ih fun u hu => h u (List.mem_cons_of_mem s hu)]

end Mdx

namespace Plan

open Mdx

/-! ## Sets of cuts and of axes -/

theorem calls_located (function : String) (xs : List Located) :
    Fragment.listCalls function (xs.map fun x => .identifier x.identifier) = 0 := by
  refine Fragment.listCalls_eq_zero fun f hf => ?_
  obtain ⟨x, -, rfl⟩ := List.mem_map.1 hf
  rfl

theorem Cut.subsets_toSet (c : Cut) : c.toSet.subsets = 0 := by
  obtain ⟨expression, shape⟩ := c
  cases shape with
  | set xs => exact calls_located "SUBSET" xs
  | member x => rfl
  | range low high => rfl
  | namedSet anchor => rfl

/-- Before it is wrapped, the set of an axis cuts no window. -/
theorem AxisSet.subsets_set {axis : AxisSet} {base : SetExpr} (h : axis.set = .ok base) :
    base.subsets = 0 := by
  cases axis with
  | plain level uniqueName =>
      cases h
      rfl
  | namedSet set =>
      cases h
      rfl
  | cut c =>
      cases h
      have hcut := c.subsets_toSet
      rw [AxisSet.cutSet]
      split
      · rw [SetExpr.braced, SetExpr.subsets, SetExpr.listSubsets, hcut, SetExpr.listSubsets]
      · exact hcut
  | expansion c level uniqueName =>
      rw [AxisSet.set] at h
      cases hshape : c.shape with
      | member x =>
          simp only [hshape] at h
          cases h
          rfl
      | set xs =>
          simp only [hshape] at h
          cases h
          refine SetExpr.listSubsets_eq_zero fun s hs => ?_
          obtain ⟨f, hf, rfl⟩ := List.mem_map.1 hs
          rw [Cut.memberFragments, hshape] at hf
          obtain ⟨x, -, rfl⟩ := List.mem_map.1 hf
          rfl
      | range low high => simp [hshape] at h
      | namedSet anchor => simp [hshape] at h

theorem subsets_orderSet (order : Option Order) (axis : AxisSet) (set : SetExpr) :
    (orderSet order axis set).subsets = set.subsets := by
  cases order with
  | none => rfl
  | some o =>
      rw [orderSet]
      split
      · rfl
      · rfl

theorem Window.applyTo_eq (w : Window) (set : SetExpr) :
    w.applyTo set = if w = .everything then set else .subset set (w.offset.getD 0) w.limit := by
  obtain ⟨offset, limit⟩ := w
  cases offset <;> cases limit <;> simp [applyTo, isEverything, everything]

theorem Window.subsets_applyTo (w : Window) (set : SetExpr) :
    (w.applyTo set).subsets = set.subsets + if w = .everything then 0 else 1 := by
  rw [Window.applyTo_eq]
  split
  · rfl
  · rfl

/-- The wrapped set of an axis: ordered, then cut to the window if the axis is alone, then distinct. -/
theorem wrappedSet_eq_ok {clauses : Clauses} {single : Bool} {axis : AxisSet} {set : SetExpr} :
    wrappedSet clauses single axis = .ok set ↔
      ∃ base, axis.set = .ok base ∧
        let ordered := orderSet clauses.order axis base
        let shown := if single then clauses.window.applyTo ordered else ordered
        set = if clauses.distinct then .distinct shown else shown := by
  simp only [wrappedSet, bind_eq_ok]
  constructor
  · intro h
    obtain ⟨base, hbase, h⟩ := h
    cases h
    exact ⟨base, hbase, rfl⟩
  · intro h
    obtain ⟨base, hbase, rfl⟩ := h
    exact ⟨base, hbase, rfl⟩

theorem subsets_wrappedSet {clauses : Clauses} {single : Bool} {axis : AxisSet} {set : SetExpr}
    (h : wrappedSet clauses single axis = .ok set) :
    set.subsets = if single ∧ clauses.window ≠ .everything then 1 else 0 := by
  obtain ⟨base, hbase, rfl⟩ := wrappedSet_eq_ok.1 h
  have hordered : (orderSet clauses.order axis base).subsets = 0 := by
    rw [subsets_orderSet, AxisSet.subsets_set hbase]
  have hshown : (if single then clauses.window.applyTo (orderSet clauses.order axis base)
      else orderSet clauses.order axis base).subsets =
      if single ∧ clauses.window ≠ .everything then 1 else 0 := by
    cases single with
    | false => simpa using hordered
    | true =>
        simp only [if_true, Window.subsets_applyTo, hordered]
        by_cases hw : clauses.window = .everything <;> simp [hw]
  cases clauses.distinct with
  | false => simpa using hshown
  | true => simpa [SetExpr.subsets] using hshown

theorem subsets_wrappedSets {clauses : Clauses} {axes : List AxisSet} {sets : List SetExpr}
    (h : axes.mapM (wrappedSet clauses (axes.length == 1)) = .ok sets) :
    SetExpr.listSubsets sets = if axes.length = 1 ∧ clauses.window ≠ .everything then 1 else 0 := by
  have hall := mapM_eq_ok.1 h
  by_cases hsingle : axes.length = 1
  · obtain ⟨axis, rfl⟩ := List.length_eq_one_iff.1 hsingle
    cases hall with
    | cons hset hrest =>
        cases hrest
        rw [SetExpr.listSubsets, SetExpr.listSubsets, Nat.add_zero, subsets_wrappedSet hset]
        simp
  · have hnone : ∀ set ∈ sets, set.subsets = 0 := by
      intro set hset
      obtain ⟨axis, -, hwrapped⟩ := exists_of_mem_mapM h hset
      rw [subsets_wrappedSet hwrapped]
      simp [hsingle]
    rw [SetExpr.listSubsets_eq_zero hnone]
    simp [hsingle]

/-! ## Compiled queries -/

theorem CompiledQuery.subsets_toQuery (q : CompiledQuery) :
    q.toQuery.subsets = SetExpr.listSubsets q.axisSets := by
  have hmeasures : (SetExpr.set (q.measures.map fun m => .member (q.measureName m))).subsets = 0 := by
    refine SetExpr.listSubsets_eq_zero fun s hs => ?_
    obtain ⟨m, -, rfl⟩ := List.mem_map.1 hs
    rfl
  have hslicer : SetExpr.listSubsets (q.slicer.map (·.toSet)) = 0 := by
    refine SetExpr.listSubsets_eq_zero fun s hs => ?_
    obtain ⟨c, -, rfl⟩ := List.mem_map.1 hs
    exact c.subsets_toSet
  rw [Query.subsets, CompiledQuery.toQuery, hslicer, Nat.add_zero, List.map_cons, List.map_map,
    SetExpr.listSubsets, hmeasures, Nat.zero_add]
  exact congrArg SetExpr.listSubsets (List.map_id _)

def Request.window (r : Request) : Window := ⟨r.offset, r.limit⟩

/-- How a query compiled from a request carries its window: with one drilldown in the set of the axis,
after the order and inside of what makes it distinct, otherwise as the window on rows. -/
structure CompiledQuery.Carries (q : CompiledQuery) (r : Request) (order : Option Order) : Prop where
  single : r.drilldown.length = 1 → q.rowWindow = .everything ∧
    ∃ axis base, q.axes = [axis] ∧ axis.set = .ok base ∧
      let ordered := orderSet order axis base
      let shown :=
        if r.window = .everything then ordered
        else .subset ordered (r.offset.getD 0) r.limit
      q.axisSets = [if r.distinct then .distinct shown else shown]
  several : r.drilldown.length ≠ 1 → q.rowWindow = r.window
  subsets : q.toQuery.subsets = if r.drilldown.length = 1 ∧ r.window ≠ .everything then 1 else 0

theorem assemble_carries {cube : String} {measures : List Measure} {drilldowns : List Drilldown}
    {plan : AxisPlan} {r : Request} {filter : Condition} {order : Option Order} {q : CompiledQuery}
    (hplan : plan.axes.length = r.drilldown.length)
    (h : assemble cube measures drilldowns plan (r.clauses filter order) = .ok q) :
    q.Carries r order := by
  obtain ⟨-, sets, hsets, rfl⟩ := assemble_eq_ok.1 h
  refine ⟨fun hsingle => ?_, fun hseveral => ?_, ?_⟩
  · obtain ⟨axis, haxes⟩ := List.length_eq_one_iff.1 (hplan.trans hsingle)
    have hall := mapM_eq_ok.1 hsets
    rw [haxes] at hall
    refine ⟨by simp [haxes], axis, ?_⟩
    cases hall with
    | cons hset hrest =>
        cases hrest
        obtain ⟨base, hbase, rfl⟩ := wrappedSet_eq_ok.1 hset
        refine ⟨base, haxes, hbase, ?_⟩
        simp only [List.length_singleton, BEq.rfl, if_true, Window.applyTo_eq]
        rfl
  · simp [hplan, hseveral, Request.window, Request.clauses]
  · rw [CompiledQuery.subsets_toQuery, subsets_wrappedSets hsets, hplan]
    rfl

theorem compile_carries {σ : Type} {engine : Engine σ} {cube : Cube} {r : Request} {s t : σ}
    {q : CompiledQuery} (h : (compile engine cube r).run s = (.ok q, t)) :
    ∃ order, r.compiledOrder cube = .ok order ∧ q.Carries r order := by
  obtain ⟨measures, drilldowns, cuts, -, hdrilldowns, -, hresolved⟩ := compile_run_eq_ok.1 h
  obtain ⟨filter, order, plan, -, horder, hplan, hassemble⟩ := compileResolved_eq_ok.1 hresolved
  have hlength := length_axes_of_matchCuts hdrilldowns hplan
  exact ⟨order, horder, assemble_carries hlength hassemble⟩

/-- A result with one drilldown axis gives the same table in a window as its subset does without one,
and every compiled query carries the window of its request in one of these two ways and once. -/
theorem pagination_agrees {σ : Type} (engine : Engine σ) (cube : Cube) :
    (∀ (r shown : CellResult) (w : Window) (measures axis : ResultAxis) (ref : LevelRef)
        (level : ResolvedLevel) (options : Tidy.Options),
      shown.IsSubset r w measures axis → axis.level = some ref → cube.level? ref = some level →
      Tidy.Table.ofResult shown cube { options with window := .everything } =
        Tidy.Table.ofResult r cube { options with window := w }) ∧
    (∀ (r : CellResult) (w : Window) (measures axis : ResultAxis), r.axes = [measures, axis] →
      measures.members.length * axis.members.length ≤ UInt64.size →
      (r.subset w).IsSubset r w measures axis) ∧
    ∀ (request : Request) (s t : σ) (q : CompiledQuery),
      (compile engine cube request).run s = (.ok q, t) →
      ∃ order, request.compiledOrder cube = .ok order ∧ q.Carries request order :=
  ⟨fun _ _ _ _ _ _ _ options h href hlevel => h.ofResult_eq href hlevel options,
    fun _ w _ _ haxes hplaces => isSubset_subset w haxes hplaces,
    fun _ _ _ _ h => compile_carries h⟩

/-- Three states, of which the first is skipped and the limit is more than are left. -/
theorem pagination_agrees_states :
    let cube := { Tidy.storeCube with
      measures := [⟨"Units", "Units", "[Measures].[Units]", true, .empty⟩] }
    let states : ResultAxis := ⟨[Tidy.storeMember "CA" 2 "State", Tidy.storeMember "OR" 2 "State",
      Tidy.storeMember "WA" 2 "State"], some ⟨"Store", "Store", "State"⟩, .empty⟩
    let units : ResultAxis := .ofMembers [.ofMeasure "Units" "[Measures].[Units]" "Units"]
    let r : CellResult := ⟨[units, states], .dense [.int 10, .null, .int 3], none⟩
    let options : Tidy.Options := { Tidy.plainOptions with parents := true, sparse := true }
    let request : Request := { Request.empty with
      drilldown := ["Store.State"], offset := some 1, limit := some 5, distinct := true }
    (r.subset request.window).IsSubset r request.window units states ∧
    Tidy.Table.ofResult (r.subset request.window) cube { options with window := .everything } =
      Tidy.Table.ofResult r cube { options with window := request.window } ∧
    ∃ q order, (compile silentEngine cube request).run () = (.ok q, ()) ∧ q.Carries request order ∧
      q.toQuery.subsets = 1 := by
  intro cube states units r options request
  obtain ⟨hagrees, hsubset, hcarries⟩ := pagination_agrees silentEngine cube
  have hshown : (r.subset request.window).IsSubset r request.window units states :=
    hsubset r request.window units states rfl (by decide +kernel)
  refine ⟨hshown, hagrees r _ request.window units states _ _ options hshown rfl rfl, ?_⟩
  have hok : ((compile silentEngine cube request).run ()).1.toOption.isSome = true := by
    decide +kernel
  rcases hrun : (compile silentEngine cube request).run () with ⟨outcome, _⟩
  cases outcome with
  | error e => simp [hrun, Except.toOption] at hok
  | ok q =>
      obtain ⟨order, -, h⟩ := hcarries request () () q hrun
      exact ⟨q, order, rfl, h, h.subsets⟩

end Plan
end CubeQuery
