import CubeQuery.Proofs.Plan.Pagination
import CubeQuery.Proofs.Plan.Refusals

/-!
# Assembling a matched plan

An axis gives no set only if it expands a range or a named set, and no axis of a matched plan does. So
the plan is assembled unless the order clause applies to none of its axes, and every expansion is
rendered as one term for each member of its cut (`assemble_fails_exactly`).
-/

namespace CubeQuery

namespace Mdx

/-! ## Rendered descendants -/

/-- The terms for the descendants of fragments at a level, in order. -/
def descendantsTokens (level : String) (fs : List Fragment) : List Token :=
  separator.intercalate (fs.map fun f =>
    callTokens "descendants" [[.fragment f.text], [.uniqueIdent level]])

/-- A set is rendered with the terms for the descendants of the fragments, and with no others. -/
def SetExpr.Expands (set : SetExpr) (level : String) (fs : List Fragment) : Prop :=
  ∃ front back, set.tokens = front ++ descendantsTokens level fs ++ back ∧
    Token.functionName "descendants" ∉ front ∧ Token.functionName "descendants" ∉ back

theorem functionName_notMem_key (function : String) (key : ValueExpr) :
    Token.functionName function ∉ key.tokens := by
  match key with
  | .measure uniqueName => simp [ValueExpr.tokens]
  | .property hierarchy name => simp [ValueExpr.tokens, currentMember, propertiesCall]
  | .attribute hierarchy which =>
      cases which <;> simp [ValueExpr.tokens, currentMember, propertiesCall]

theorem SetExpr.listTokens_eq_map (sets : List SetExpr) :
    SetExpr.listTokens sets = sets.map (·.tokens) := by
  induction sets with
  | nil => rfl
  | cons s rest ih => rw [SetExpr.listTokens, ih, List.map_cons]

/-- The descendants of each of the fragments, as a set. -/
theorem SetExpr.expands_set (level : String) (fs : List Fragment) :
    (SetExpr.set (fs.map fun f => .descendants (.fragment f) level)).Expands level fs := by
  refine ⟨[.lbrace], [.rbrace], ?_, by simp, by simp⟩
  simp [SetExpr.tokens, SetExpr.listTokens_eq_map, descendantsTokens, Function.comp_def]

theorem SetExpr.expands_descendants (level : String) (f : Fragment) :
    (SetExpr.descendants (.fragment f) level).Expands level [f] := by
  refine ⟨[], [], ?_, by simp, by simp⟩
  simp [SetExpr.tokens, descendantsTokens]

namespace SetExpr.Expands

variable {base : SetExpr} {level : String} {fs : List Fragment}

/-- What stands around a set may be anything that expands nothing. -/
theorem around {set : SetExpr} (h : base.Expands level fs) (front back : List Token)
    (htokens : set.tokens = front ++ base.tokens ++ back)
    (hfront : Token.functionName "descendants" ∉ front)
    (hback : Token.functionName "descendants" ∉ back) : set.Expands level fs := by
  obtain ⟨front', back', hbase, hfront', hback'⟩ := h
  refine ⟨front ++ front', back' ++ back, ?_, ?_, ?_⟩
  · simp only [htokens, hbase, List.append_assoc]
  · exact List.not_mem_append hfront hfront'
  · exact List.not_mem_append hback' hback

theorem order (h : base.Expands level fs) (key : ValueExpr) (direction : SortDirection) :
    (SetExpr.order base key direction).Expands level fs := by
  refine h.around [.functionName "order", .lparen]
    (separator ++ key.tokens ++ separator ++ [direction.token, .rparen]) ?_ (by simp) ?_
  · simp [tokens, callTokens, List.intercalate_cons_cons]
  · cases direction <;> simp [separator, functionName_notMem_key, SortDirection.token]

theorem subset (h : base.Expands level fs) (start : Nat) (count : Option Nat) :
    (SetExpr.subset base start count).Expands level fs := by
  cases count with
  | none =>
      refine h.around [.functionName "subset", .lparen] (separator ++ [.integer start, .rparen]) ?_
        (by simp) (by simp [separator])
      simp [tokens, callTokens, List.intercalate_cons_cons]
  | some count =>
      refine h.around [.functionName "subset", .lparen]
        (separator ++ .integer start :: separator ++ [.integer count, .rparen]) ?_ (by simp)
        (by simp [separator])
      simp [tokens, callTokens, List.intercalate_cons_cons]

theorem distinct (h : base.Expands level fs) : (SetExpr.distinct base).Expands level fs := by
  refine h.around [.functionName "distinct", .lparen] [.rparen] ?_ (by simp) (by simp)
  simp [tokens, callTokens]

end SetExpr.Expands

end Mdx

namespace Plan

open Mdx

/-! ## Expansions -/

/-- What an expansion lists of a cut: the elements of a set in order, or the one member. -/
inductive Cut.ExpandsTo (c : Cut) : List Fragment → Prop where
  | set {xs : List Located} {items : List Fragment} (hshape : c.shape = .set xs)
      (hitems : c.fragment? = some (.braces items)) : ExpandsTo c items
  | member {x : Located} {f : Fragment} (hshape : c.shape = .member x) (hf : c.fragment? = some f) :
      ExpandsTo c [f]

/-- A cut that is neither a range nor a named set is expanded member by member. -/
theorem AxisSet.exists_set_expansion {c : Cut} (hset : c.isNamedSet = false)
    (hrange : c.isRange = false) (level : LevelRef) (uniqueName : String) :
    ∃ base items, (AxisSet.expansion c level uniqueName).set = .ok base ∧ c.ExpandsTo items ∧
      items.length = c.members.length ∧ base.Expands uniqueName items := by
  obtain ⟨expression, shape⟩ := c
  cases shape with
  | namedSet anchor => cases hset
  | range low high => cases hrange
  | member x =>
      exact ⟨_, [.identifier x.identifier], rfl, .member rfl rfl, rfl, SetExpr.expands_descendants _ _⟩
  | set xs =>
      have hlength : (xs.map fun x => Fragment.identifier x.identifier).length =
          (Cut.mk expression (.set xs)).members.length := by
        simp [Cut.members, Cut.located]
      exact ⟨_, _, rfl, .set rfl rfl, hlength, SetExpr.expands_set _ _⟩

/-! ## Assembling -/

theorem ordersNothing_iff {o : Order} {axes : List AxisSet} : ordersNothing o axes = true ↔
    axes ≠ [] ∧ ∀ axis ∈ axes, o.appliesTo axis.level? = false := by
  simp [ordersNothing]

theorem checkOrder_eq_error_iff {order : Option Order} {axes : List AxisSet} {e : QueryError} :
    checkOrder order axes = .error e ↔
      ∃ o, order = some o ∧ ordersNothing o axes = true ∧
        e = .invalidOrder o.expression "its dimension is not in the drilldown list" := by
  cases order with
  | none => simp [checkOrder]
  | some o =>
      cases hnothing : ordersNothing o axes with
      | false => simp [checkOrder, hnothing]
      | true => simp [checkOrder, hnothing, eq_comm (b := e)]

/-- An axis that stands for a drilldown expands neither a range nor a named set. -/
theorem AxisSet.Serves.expansion_spec {c : Cut} {level : LevelRef} {uniqueName : String}
    {target : DrilldownTarget} (h : (AxisSet.expansion c level uniqueName).Serves target) :
    c.isNamedSet = false ∧ c.isRange = false := by
  refine ⟨h.isNamedSet_eq_false rfl, ?_⟩
  cases h with
  | expansion habove hrange uniqueName => exact hrange

theorem AxisSet.Serves.exists_set {axis : AxisSet} {target : DrilldownTarget}
    (h : axis.Serves target) : ∃ set, axis.set = .ok set := by
  cases axis with
  | plain level uniqueName => exact ⟨_, rfl⟩
  | cut c => exact ⟨_, rfl⟩
  | namedSet set => exact ⟨_, rfl⟩
  | expansion c level uniqueName =>
      obtain ⟨hset, hrange⟩ := h.expansion_spec
      obtain ⟨base, _, hbase, -⟩ := AxisSet.exists_set_expansion hset hrange level uniqueName
      exact ⟨base, hbase⟩

theorem wrappedSet_expands {clauses : Clauses} {single : Bool} {axis : AxisSet}
    {base set : SetExpr} {level : String} {fs : List Fragment} (hbase : axis.set = .ok base)
    (hexpands : base.Expands level fs) (h : wrappedSet clauses single axis = .ok set) :
    set.Expands level fs := by
  obtain ⟨base', hbase', rfl⟩ := wrappedSet_eq_ok.1 h
  obtain rfl : base = base' := by
    rw [hbase] at hbase'
    exact Except.ok.inj hbase'
  have hordered : (orderSet clauses.order axis base).Expands level fs := by
    cases horder : clauses.order with
    | none => exact hexpands
    | some o =>
        rw [orderSet]
        split
        · exact hexpands.order _ _
        · exact hexpands
  have hshown : (if single then clauses.window.applyTo (orderSet clauses.order axis base)
      else orderSet clauses.order axis base).Expands level fs := by
    split
    · rw [Window.applyTo]
      split
      · exact hordered
      · exact hordered.subset _ _
    · exact hordered
  split
  · exact hshown.distinct
  · exact hshown

/-- If every axis gives a set, only the check of the order clause can fail. -/
theorem assemble_eq_error_iff {cube : String} {measures : List Measure} {drilldowns : List Drilldown}
    {plan : AxisPlan} {clauses : Clauses} {e : QueryError}
    (hsets : ∀ axis ∈ plan.axes, ∃ set, axis.set = .ok set) :
    assemble cube measures drilldowns plan clauses = .error e ↔
      checkOrder clauses.order plan.axes = .error e := by
  have hwrapped : ∀ axis ∈ plan.axes, ∃ set,
      wrappedSet clauses (plan.axes.length == 1) axis = .ok set := by
    intro axis haxis
    obtain ⟨base, hbase⟩ := hsets axis haxis
    exact ⟨_, wrappedSet_eq_ok.2 ⟨base, hbase, rfl⟩⟩
  obtain ⟨sets, hall⟩ := exists_mapM_eq_ok hwrapped
  cases horder : checkOrder clauses.order plan.axes with
  | error e' => simp [assemble, horder, bind, Except.bind]
  | ok _ => simp [assemble, horder, hall, bind, Except.bind, pure, Except.pure]

/-- A matched plan is assembled unless it has axes and an order clause that applies to none of them,
which is then the failure. Every axis has a set, and an expansion is rendered as one term for each
member of its cut, in order. -/
theorem assemble_fails_exactly (drilldowns : List Drilldown) (cuts : List Cut) (plan : AxisPlan)
    (cube : String) (measures : List Measure) (clauses : Clauses)
    (hplan : matchCuts drilldowns cuts = .ok plan) :
    ((∃ e, assemble cube measures drilldowns plan clauses = .error e) ↔
      ∃ o, clauses.order = some o ∧ plan.axes ≠ [] ∧
        ∀ axis ∈ plan.axes, o.appliesTo axis.level? = false) ∧
    (∀ e, assemble cube measures drilldowns plan clauses = .error e →
      ∃ o, clauses.order = some o ∧
        e = .invalidOrder o.expression "its dimension is not in the drilldown list") ∧
    (∀ axis ∈ plan.axes, ∃ set, axis.set = .ok set) ∧
    ∀ q, assemble cube measures drilldowns plan clauses = .ok q → q.axes = plan.axes ∧
      List.Forall₂ (fun axis set => ∀ c level uniqueName, axis = .expansion c level uniqueName →
        ∃ items, c.ExpandsTo items ∧ items.length = c.members.length ∧
          set.Expands uniqueName items) q.axes q.axisSets := by
  obtain ⟨-, hrun, -⟩ := matchCuts_eq_ok.1 hplan
  have hserves : ∀ axis ∈ plan.axes, ∃ target, axis.Serves target := by
    intro axis haxis
    obtain ⟨d, -, hd⟩ := hrun.exists_serves haxis
    exact ⟨d.target, hd⟩
  have hsets : ∀ axis ∈ plan.axes, ∃ set, axis.set = .ok set := by
    intro axis haxis
    obtain ⟨target, htarget⟩ := hserves axis haxis
    exact htarget.exists_set
  refine ⟨?_, ?_, hsets, ?_⟩
  · simp only [assemble_eq_error_iff hsets, checkOrder_eq_error_iff, ordersNothing_iff]
    constructor
    · intro h
      obtain ⟨e, o, horder, hnothing, -⟩ := h
      exact ⟨o, horder, hnothing⟩
    · intro h
      obtain ⟨o, horder, hnothing⟩ := h
      exact ⟨_, o, horder, hnothing, rfl⟩
  · intro e he
    obtain ⟨o, horder, -, rfl⟩ := checkOrder_eq_error_iff.1 ((assemble_eq_error_iff hsets).1 he)
    exact ⟨o, horder, rfl⟩
  · intro q hq
    obtain ⟨-, sets, hall, rfl⟩ := assemble_eq_ok.1 hq
    have hboth := (List.forall₂_and_left plan.axes sets).2 ⟨hserves, mapM_eq_ok.1 hall⟩
    refine ⟨rfl, hboth.imp ?_⟩
    rintro axis set ⟨⟨target, htarget⟩, hset⟩ c level uniqueName rfl
    obtain ⟨hnamed, hrange⟩ := htarget.expansion_spec
    obtain ⟨base, items, hbase, hitems, hlength, hexpands⟩ :=
      AxisSet.exists_set_expansion hnamed hrange level uniqueName
    exact ⟨items, hitems, hlength, wrappedSet_expands hbase hexpands hset⟩

/-- Two years above drilled months, ordered by a measure; an order by another dimension is refused. -/
theorem assemble_fails_exactly_years :
    let year (name : String) : Located :=
      ⟨⟨[⟨.quoted, name⟩]⟩, { Member.ofMeasure name name name with level := ⟨"Time", "Time", "Year"⟩ }⟩
    let years : Cut := ⟨"\x7b[1997], [1998]\x7d", .set [year "1997", year "1998"]⟩
    let month : LevelRef := ⟨"Time", "Time", "Month"⟩
    let drilldowns : List Drilldown := [⟨"Time.Month", .level month "[Time].[Month]" 1⟩]
    let plan : AxisPlan := ⟨[.expansion years month "[Time].[Month]"], []⟩
    let units : Order := ⟨"Measures.Units", .measure "[Measures].[Units]", .descending, none⟩
    let city : Order :=
      ⟨"Store.City.Name", .attribute "[Store]" .name, .ascending, some ⟨"Store", "Store", "City"⟩⟩
    let clauses : Clauses := ⟨⟨[]⟩, some units, .everything, true, false⟩
    matchCuts drilldowns [years] = .ok plan ∧
      (∃ q set items, assemble "Sales" [] drilldowns plan clauses = .ok q ∧ q.axisSets = [set] ∧
        set.Expands "[Time].[Month]" items ∧ serialize (descendantsTokens "[Time].[Month]" items) =
          "DESCENDANTS([1997], [Time].[Month]), DESCENDANTS([1998], [Time].[Month])") ∧
      ∃ e, assemble "Sales" [] drilldowns plan { clauses with order := some city } = .error e := by
  intro year years month drilldowns plan units city clauses
  have hplan : matchCuts drilldowns [years] = .ok plan := rfl
  have hcity := (assemble_fails_exactly drilldowns [years] plan "Sales" []
    { clauses with order := some city } hplan).1
  obtain ⟨hfails, -, -, hok⟩ :=
    assemble_fails_exactly drilldowns [years] plan "Sales" [] clauses hplan
  refine ⟨hplan, ?_, hcity.2 ⟨city, rfl, List.cons_ne_nil _ _, by decide⟩⟩
  cases hq : assemble "Sales" [] drilldowns plan clauses with
  | error e =>
      obtain ⟨o, horder, -, hnothing⟩ := hfails.1 ⟨e, hq⟩
      cases horder
      exact absurd (hnothing _ List.mem_cons_self) (by decide)
  | ok q =>
      obtain ⟨haxes, hall⟩ := hok q hq
      rw [haxes] at hall
      obtain ⟨set, rest, hset, hrest, hsets⟩ := List.forall₂_cons_left_iff.1 hall
      obtain ⟨items, hitems, -, hexpands⟩ := hset years month "[Time].[Month]" rfl
      rw [List.forall₂_nil_left_iff.1 hrest] at hsets
      refine ⟨q, set, items, rfl, hsets, hexpands, ?_⟩
      cases hitems with
      | member hshape hf => cases hshape
      | set hshape hfragment =>
          cases hfragment
          decide +kernel

end Plan

end CubeQuery
