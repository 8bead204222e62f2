import CubeQuery.Plan.Compile
import CubeQuery.Proofs.Plan.Matching

/-!
# Compiled requests

What each stage of a compilation that succeeds has returned, and what the compiled query keeps of the
drilldowns and of the cuts it was compiled from.
-/

namespace CubeQuery.Plan

/-! ## Cuts -/

section Cuts

variable {σ : Type} {engine : Engine σ} {cube : Cube} {s t : σ}

/-- A cut is resolved to the named set or to the shape that its text is read as. -/
theorem Cut.resolve_outcome_eq_ok {expression : String} {c : Cut} :
    ((Cut.resolve engine cube expression).run s).1 = .ok c ↔
      c.expression = Text.trimmed expression ∧
        match Cut.read cube (Text.trimmed expression) with
        | .namedSet anchor => c.shape = .namedSet anchor
        | .pattern p =>
          ((Cut.locatePattern engine cube.name (Text.trimmed expression) p).run s).1 = .ok c.shape
        | .faulty _ => False := by
  obtain ⟨written, shape⟩ := c
  rw [Cut.resolve]
  dsimp only
  cases Cut.read cube (Text.trimmed expression) with
  | namedSet anchor =>
      constructor
      · intro h
        cases h
        exact ⟨rfl, rfl⟩
      · rintro ⟨rfl, rfl⟩
        rfl
  | pattern p =>
      constructor
      · intro h
        obtain ⟨_, hshape, hc⟩ := Action.bind_outcome_eq_ok.1 h
        cases hc
        exact ⟨rfl, hshape⟩
      · rintro ⟨rfl, hshape⟩
        exact Action.bind_outcome_eq_ok.2 ⟨shape, hshape, rfl⟩
  | faulty f =>
      refine iff_of_false (fun h => ?_) fun h => h.2
      obtain ⟨_, _, hthrow⟩ := Action.bind_outcome_eq_ok.1 h
      cases hthrow

/-- A pattern is located as a shape of its kind, whose members lie on one level. -/
theorem Cut.locatePattern_outcome_eq_ok {name expression : String} {p : CutPattern} {c : Cut} :
    ((Cut.locatePattern engine name expression p).run s).1 = .ok c.shape ↔
      Cut.onOneLevel c.located = true ∧
        match p with
        | .member id =>
          ∃ x, c.shape = .member x ∧ ((Cut.locate engine name inMember expression id).run s).1 = .ok x
        | .set ids =>
          ∃ xs, c.shape = .set xs ∧ ((Cut.locateAll engine name inSet ids).run s).1 = .ok xs
        | .range low high => ∃ x y, c.shape = .range x y ∧
          ((Cut.locateAll engine name inRange [low, high]).run s).1 = .ok [x, y] := by
  obtain ⟨written, shape⟩ := c
  cases p with
  | member id =>
      constructor
      · intro h
        obtain ⟨x, hx, hshape⟩ := Action.bind_outcome_eq_ok.1 h
        cases hshape
        exact ⟨rfl, x, rfl, hx⟩
      · rintro ⟨-, x, rfl, hx⟩
        exact Action.bind_outcome_eq_ok.2 ⟨x, hx, rfl⟩
  | set ids =>
      constructor
      · intro h
        obtain ⟨xs, hxs, hshape⟩ := Action.bind_outcome_eq_ok.1 h
        split at hshape
        · rename_i hone
          cases hshape
          exact ⟨hone, xs, rfl, hxs⟩
        · cases hshape
      · rintro ⟨hone, xs, rfl, hxs⟩
        refine Action.bind_outcome_eq_ok.2 ⟨xs, hxs, ?_⟩
        rw [if_pos (show Cut.onOneLevel xs = true from hone)]
        rfl
  | range low high =>
      constructor
      · intro h
        obtain ⟨xs, hxs, hshape⟩ := Action.bind_outcome_eq_ok.1 h
        split at hshape
        · split at hshape
          · rename_i hone
            cases hshape
            exact ⟨hone, _, _, rfl, hxs⟩
          · cases hshape
        · cases hshape
      · rintro ⟨hone, x, y, rfl, hxs⟩
        refine Action.bind_outcome_eq_ok.2 ⟨[x, y], hxs, ?_⟩
        dsimp only
        rw [if_pos (show Cut.onOneLevel [x, y] = true from hone)]
        rfl

theorem Cut.resolve_run_ne_ok {expression : String} {c : Cut}
    (h : (Cut.read cube (Text.trimmed expression)).isFaulty = true) :
    (Cut.resolve engine cube expression).run s ≠ (.ok c, t) := by
  intro hok
  obtain ⟨-, hread⟩ := Cut.resolve_outcome_eq_ok.1 (congrArg Prod.fst hok)
  cases hfaulty : Cut.read cube (Text.trimmed expression) with
  | namedSet anchor => simp [hfaulty, Cut.Reading.isFaulty] at h
  | pattern p => simp [hfaulty, Cut.Reading.isFaulty] at h
  | faulty f => simp [hfaulty] at hread

/-- Resolving cuts together succeeds exactly when each one resolves after the one before it. -/
theorem Cut.resolveAll_run_eq_ok {expressions : List String} {cuts : List Cut} :
    (Cut.resolveAll engine cube expressions).run s = (.ok cuts, t) ↔
      (expressions.mapM (Cut.resolve engine cube)).run s = (.ok cuts, t) := by
  induction expressions generalizing s cuts with
  | nil => rfl
  | cons e rest ih =>
      rw [Cut.resolveAll, Cut.untilFaulty, Action.mapM_cons_run_eq_ok]
      split
      · rename_i hfaulty
        simp only [List.map_cons, Action.all_cons_run_eq_ok]
        constructor
        · intro h
          obtain ⟨_, _, _, hfirst, _⟩ := h
          exact absurd hfirst (Cut.resolve_run_ne_ok hfaulty)
        · intro h
          obtain ⟨_, _, _, hfirst, _⟩ := h
          exact absurd hfirst (Cut.resolve_run_ne_ok hfaulty)
      · rw [List.map_cons, Action.all_cons_run_eq_ok]
        simp only [← ih, Cut.resolveAll]

end Cuts

/-! ## Stages -/

theorem assemble_eq_ok {cube : String} {measures : List Measure} {drilldowns : List Drilldown}
    {plan : AxisPlan} {clauses : Clauses} {q : CompiledQuery} :
    assemble cube measures drilldowns plan clauses = .ok q ↔
      checkOrder clauses.order plan.axes = .ok () ∧
      ∃ sets, plan.axes.mapM (wrappedSet clauses (plan.axes.length == 1)) = .ok sets ∧
        q = {
          cube, measures, drilldowns
          axisSets := sets
          filter := clauses.filter
          axes := plan.axes
          slicer := plan.slicer
          nonempty := clauses.nonempty
          rowWindow := if plan.axes.length == 1 then .everything else clauses.window } := by
  simp only [assemble, bind_eq_ok]
  constructor
  · intro h
    obtain ⟨_, horder, sets, hsets, h⟩ := h
    cases h
    exact ⟨horder, sets, hsets, rfl⟩
  · intro h
    obtain ⟨horder, sets, hsets, rfl⟩ := h
    exact ⟨(), horder, sets, hsets, rfl⟩

def Request.clauses (r : Request) (filter : Mdx.Condition) (order : Option Order) : Clauses where
  filter := filter
  order := order
  window := ⟨r.offset, r.limit⟩
  nonempty := r.nonempty
  distinct := r.distinct

theorem compileResolved_eq_ok {cube : Cube} {r : Request} {measures : List Measure}
    {drilldowns : List Drilldown} {cuts : List Cut} {q : CompiledQuery} :
    compileResolved cube r measures drilldowns cuts = .ok q ↔
      ∃ filter order plan, Filter.condition cube r.filter = .ok filter ∧
        r.compiledOrder cube = .ok order ∧ matchCuts drilldowns cuts = .ok plan ∧
        assemble cube.name measures drilldowns plan (r.clauses filter order) = .ok q := by
  simp only [compileResolved, bind_eq_ok]
  constructor
  · intro h
    obtain ⟨filter, hfilter, order, horder, plan, hplan, h⟩ := h
    exact ⟨filter, order, plan, hfilter, horder, hplan, h⟩
  · intro h
    obtain ⟨filter, order, plan, hfilter, horder, hplan, h⟩ := h
    exact ⟨filter, hfilter, order, horder, plan, hplan, h⟩

theorem compile_run_eq_ok {σ : Type} {engine : Engine σ} {cube : Cube} {r : Request} {s t : σ}
    {q : CompiledQuery} :
    (compile engine cube r).run s = (.ok q, t) ↔
      ∃ measures drilldowns cuts, resolveMeasures cube r.measures = .ok measures ∧
        r.drilldown.mapM (Drilldown.resolve cube) = .ok drilldowns ∧
        (r.cut.mapM (Cut.resolve engine cube)).run s = (.ok cuts, t) ∧
        compileResolved cube r measures drilldowns cuts = .ok q := by
  simp only [compile, Action.bind_run_eq_ok, Action.ofExcept_run_eq_ok, Cut.resolveAll_run_eq_ok]
  constructor
  · intro h
    obtain ⟨measures, _, ⟨hmeasures, rfl⟩, drilldowns, _, ⟨hdrilldowns, rfl⟩, cuts, _, hcuts,
      hresolved, rfl⟩ := h
    exact ⟨measures, drilldowns, cuts, hmeasures, hdrilldowns, hcuts, hresolved⟩
  · intro h
    obtain ⟨measures, drilldowns, cuts, hmeasures, hdrilldowns, hcuts, hresolved⟩ := h
    exact ⟨measures, _, ⟨hmeasures, rfl⟩, drilldowns, _, ⟨hdrilldowns, rfl⟩, cuts, _, hcuts,
      hresolved, rfl⟩

/-! ## Drilldowns and cuts of a compiled query -/

/-- A match has one axis for each requested drilldown. -/
theorem length_axes_of_matchCuts {cube : Cube} {requested : List String} {drilldowns : List Drilldown}
    {cuts : List Cut} {plan : AxisPlan}
    (hdrilldowns : requested.mapM (Drilldown.resolve cube) = .ok drilldowns)
    (hplan : matchCuts drilldowns cuts = .ok plan) : plan.axes.length = requested.length := by
  obtain ⟨-, hrun, -⟩ := matchCuts_eq_ok.1 hplan
  rw [hrun.serves.length_eq, (mapM_eq_ok.1 hdrilldowns).length_eq]

theorem length_axisLevels_of_compile {σ : Type} {engine : Engine σ} {cube : Cube} {r : Request}
    {s t : σ} {q : CompiledQuery} (h : (compile engine cube r).run s = (.ok q, t)) :
    q.axisLevels.length = r.drilldown.length := by
  obtain ⟨measures, drilldowns, cuts, -, hdrilldowns, -, hresolved⟩ := compile_run_eq_ok.1 h
  obtain ⟨filter, order, plan, -, -, hplan, hassemble⟩ := compileResolved_eq_ok.1 hresolved
  obtain ⟨-, sets, -, rfl⟩ := assemble_eq_ok.1 hassemble
  rw [CompiledQuery.axisLevels, List.length_map, length_axes_of_matchCuts hdrilldowns hplan]

/-- The query has one axis for each drilldown, in the order of the request and at its level. The cuts
of the axes and of the slicer are the resolved cuts of the request, each as often as it was asked for;
the slicer keeps their order and all named sets. -/
theorem compile_conserves_cuts {σ : Type} (engine : Engine σ) (cube : Cube) (r : Request) (s t : σ)
    (q : CompiledQuery) (h : (compile engine cube r).run s = (.ok q, t)) :
    (r.drilldown.mapM (Drilldown.resolve cube) = .ok q.drilldowns ∧
      q.axes.length = r.drilldown.length ∧
      List.Forall₂ (fun axis d => axis.Serves d.target ∧ axis.level? = d.level?) q.axes q.drilldowns) ∧
    ∃ cuts, (r.cut.mapM (Cut.resolve engine cube)).run s = (.ok cuts, t) ∧
      (q.axes.filterMap (·.cut?) ++ q.slicer).Perm cuts ∧
      q.slicer.Sublist cuts ∧
      q.slicer.filter (·.isNamedSet) = cuts.filter (·.isNamedSet) := by
  obtain ⟨measures, drilldowns, cuts, -, hdrilldowns, hcuts, hresolved⟩ := compile_run_eq_ok.1 h
  obtain ⟨filter, order, plan, -, -, hplan, hassemble⟩ := compileResolved_eq_ok.1 hresolved
  obtain ⟨-, sets, -, rfl⟩ := assemble_eq_ok.1 hassemble
  obtain ⟨-, hrun, -⟩ := matchCuts_eq_ok.1 hplan
  have hlength : drilldowns.length = r.drilldown.length := (mapM_eq_ok.1 hdrilldowns).length_eq.symm
  refine ⟨⟨hdrilldowns, hrun.serves.length_eq.trans hlength, ?_⟩, cuts, hcuts, hrun.perm,
    hrun.sublist, hrun.filter_isNamedSet⟩
  exact hrun.serves.imp fun axis d hserves => ⟨hserves, hserves.level?_eq⟩

/-- A drilled month takes the cut on its year; the named set stays in the slicer. -/
theorem compile_conserves_cuts_expansion :
    let time : Hierarchy := ⟨"Time", "[Time]", false, none,
      [⟨"Year", "[Time].[Year]", "Year", 0, []⟩, ⟨"Month", "[Time].[Month]", "Month", 1, []⟩]⟩
    let cube : Cube := ⟨"Sales", .empty, [⟨"Time", "Time", .time, .empty, [time]⟩],
      [⟨"Units", "Units", "[Measures].[Units]", true, .empty⟩], [⟨"Top", none⟩]⟩
    let engine : Engine Unit := {
      cubeNames := pure ["Sales"]
      cube := fun _ => pure (some cube)
      member := fun _ name =>
        pure (some { Member.ofMeasure name name name with level := ⟨"Time", "Time", "Year"⟩ })
      ancestors := fun _ _ => pure []
      children := fun _ _ => pure []
      levelMembers := fun _ _ => pure []
      execute := fun _ _ => throw (.unsupported "execute")
      flush := pure () }
    let r : Request := { Request.empty with drilldown := ["Time.Month"], cut := ["Top", "Time.1997"] }
    ∃ q, (compile engine cube r).run () = (.ok q, ()) ∧ q.slicer.map (·.expression) = ["Top"] ∧
      q.axes.length = r.drilldown.length ∧
      ∃ cuts, (r.cut.mapM (Cut.resolve engine cube)).run () = (.ok cuts, ()) ∧
        (q.axes.filterMap (·.cut?) ++ q.slicer).Perm cuts := by
  intro time cube engine r
  have hslicer : ((compile engine cube r).run ()).1.toOption.map
      (fun q => q.slicer.map (·.expression)) = some ["Top"] := by
    decide +kernel
  rcases hrun : (compile engine cube r).run () with ⟨outcome, _⟩
  cases outcome with
  | error e => simp [hrun, Except.toOption] at hslicer
  | ok q =>
      obtain ⟨⟨-, hlength, -⟩, cuts, hcuts, hperm, -, -⟩ :=
        compile_conserves_cuts engine cube r () () q hrun
      refine ⟨q, rfl, ?_, hlength, cuts, hcuts, hperm⟩
      simpa [hrun, Except.toOption] using hslicer

end CubeQuery.Plan
