import CubeQuery.Proofs.Engine.Alike
import CubeQuery.Proofs.Tidy.OwnPairs

/-!
# Calls of a request

An engine with a record of its calls behaves as it does without one. An aggregate request makes the
calls of its compilation, then executes the compiled text if nothing has failed, and then asks for
parents (`aggregate_executes_validated`).
-/

namespace CubeQuery

open CubeQuery.Action Plan

inductive Call where
  | cubeNames
  | cube (name : String)
  | member (cube expression : String)
  | ancestors (cube : String) (m : Member)
  | children (cube : String) (m : Member)
  | levelMembers (cube : String) (level : LevelRef)
  | execute (cube text : String)
  | flush
deriving DecidableEq, Repr

namespace Call

def isExecute : Call → Bool
  | .execute _ _ => true
  | _ => false

/-- A call for the member of an identifier in a cut of the request. -/
def IsCutLookup (cube : Cube) (r : Request) (c : Call) : Prop :=
  ∃ id ∈ r.lookups cube, c = .member cube.name id.text

/-- A call for the parent of a member of the result, or for the ancestors of such a parent. -/
def IsParentLookup (cube : String) (r : CellResult) (c : Call) : Prop :=
  (∃ parent ∈ Aggregation.parentNames r, c = .member cube parent) ∨ ∃ m, c = .ancestors cube m

theorem IsCutLookup.isExecute_eq {cube : Cube} {r : Request} {c : Call} (h : c.IsCutLookup cube r) :
    c.isExecute = false := by
  obtain ⟨id, -, rfl⟩ := h
  rfl

theorem IsParentLookup.isExecute_eq {cube : String} {r : CellResult} {c : Call}
    (h : c.IsParentLookup cube r) : c.isExecute = false := by
  obtain ⟨parent, -, rfl⟩ | ⟨m, rfl⟩ := h
  · rfl
  · rfl

theorem countP_isExecute_eq_zero {calls : List Call} (h : ∀ c ∈ calls, c.isExecute = false) :
    calls.countP (·.isExecute) = 0 :=
  List.countP_eq_zero.2 fun c hc => by simp [h c hc]

end Call

/-! ## Recording calls -/

section Recording

variable {σ : Type}

def EngineM.recorded {α : Type} (action : EngineM σ α) (call : Call) : EngineM (σ × List Call) α :=
  ExceptT.mk fun s => ((action.run s.1).1, (action.run s.1).2, s.2 ++ [call])

/-- The engine with its calls so far. -/
def Engine.traced (engine : Engine σ) : Engine (σ × List Call) where
  cubeNames := engine.cubeNames.recorded .cubeNames
  cube name := (engine.cube name).recorded (.cube name)
  member cube expression := (engine.member cube expression).recorded (.member cube expression)
  ancestors cube m := (engine.ancestors cube m).recorded (.ancestors cube m)
  children cube m := (engine.children cube m).recorded (.children cube m)
  levelMembers cube level := (engine.levelMembers cube level).recorded (.levelMembers cube level)
  execute cube text := (engine.execute cube text).recorded (.execute cube text)
  flush := engine.flush.recorded .flush

def Session.traced (session : Session σ) : Session (σ × List Call) :=
  ⟨session.engine.traced, session.caching⟩

def SessionState.traced (s : SessionState σ) (calls : List Call) : SessionState (σ × List Call) :=
  ⟨(s.engine, calls), s.cubes⟩

/-- A state with the earlier calls and then some calls of one kind. -/
def Extends (before : List Call) (P : Call → Prop) (s : σ × List Call) (t : σ) : Prop :=
  s.1 = t ∧ ∃ more, s.2 = before ++ more ∧ ∀ c ∈ more, P c

variable {before : List Call} {P : Call → Prop} {α : Type}

theorem recorded_run (action : EngineM σ α) (call : Call) (before : List Call) (s : σ) :
    (action.recorded call).run (s, before) =
      ((action.run s).1, (action.run s).2, before ++ [call]) := rfl

theorem recorded_alike {call : Call} (h : P call) (action : EngineM σ α) :
    Alike (Extends before P) (action.recorded call) action := by
  intro s t hst
  obtain ⟨rfl, more, hmore, hP⟩ := hst
  refine ⟨rfl, rfl, more ++ [call], ?_, fun c hc => ?_⟩
  · show s.2 ++ [call] = _
    rw [hmore, List.append_assoc]
  · obtain hc | hc := List.mem_append.1 hc
    · exact hP c hc
    · exact List.mem_singleton.1 hc ▸ h

/-- What runs alike but for its record runs the same and adds calls of the kind to the record. -/
theorem exists_calls_of_alike {ε : Type} {x : Action ε (σ × List Call) α} {y : Action ε σ α}
    (h : Alike (Extends before P) x y) (s : σ) :
    ∃ calls, x.run (s, before) = ((y.run s).1, (y.run s).2, before ++ calls) ∧
      ∀ c ∈ calls, P c := by
  obtain ⟨houtcome, hengine, calls, hcalls, hP⟩ :=
    h (s, before) s ⟨rfl, [], (List.append_nil before).symm, by simp⟩
  exact ⟨calls, Prod.ext houtcome (Prod.ext hengine hcalls), hP⟩

end Recording

/-! ## Stages of a request -/

namespace Aggregation

variable {σ : Type} (engine : Engine σ) (cube : Cube) (r : Request)

theorem compile_traced (before : List Call) (s : σ) :
    ∃ lookups, (compile engine.traced cube r).run (s, before) =
        (((compile engine cube r).run s).1, ((compile engine cube r).run s).2, before ++ lookups) ∧
      ∀ c ∈ lookups, c.IsCutLookup cube r := by
  refine exists_calls_of_alike (compile_alike fun id hid => ?_) s
  exact recorded_alike ⟨id, hid, rfl⟩ _

def complete (q : CompiledQuery) (raw : CellResult) : QueryM σ CellResult := do
  let result := completeResult q raw
  let result ← if r.parents then fetchParents engine cube.name result else pure result
  return if r.debug then { result with mdx := some q.text } else result

theorem runQuery_eq (q : CompiledQuery) :
    runQuery engine cube r q =
      (engine.execute cube.name q.text).toQuery >>= complete engine cube r q := rfl

theorem complete_traced (q : CompiledQuery) (raw : CellResult) (before : List Call) (s : σ) :
    ∃ parents, (complete engine.traced cube r q raw).run (s, before) =
        (((complete engine cube r q raw).run s).1, ((complete engine cube r q raw).run s).2,
          before ++ parents) ∧
      ∀ c ∈ parents, r.parents = true ∧ c.IsParentLookup cube.name (completeResult q raw) := by
  refine exists_calls_of_alike ?_ s
  rw [complete, complete]
  by_cases hparents : r.parents = true
  · rw [if_pos hparents, if_pos hparents]
    refine Alike.bind (fetchParents_alike (fun parent hparent => ?_) fun m => ?_) fun _ => .pure _
    · exact recorded_alike ⟨hparents, .inl ⟨parent, hparent, rfl⟩⟩ _
    · exact recorded_alike ⟨hparents, .inr ⟨m, rfl⟩⟩ _
  · rw [if_neg hparents, if_neg hparents]
    exact Alike.bind (.pure _) fun _ => .pure _

/-- The request passes all that is checked before its execution, and this is the compiled query. -/
structure Validated (s : σ) (q : CompiledQuery) (t : σ) : Prop where
  compiled : (compile engine cube r).run s = (.ok q, t)
  properties : ∃ specs,
    Tidy.PropertySpec.parseAll cube (q.axisLevels.filterMap id) r.properties = .ok specs
  captions : ∃ overrides,
    Tidy.CaptionOverrides.parse cube (q.axisLevels.filterMap id) r.caption = .ok overrides

theorem exists_optionsOf_iff {cube : Cube} {r : Request} {q : CompiledQuery} :
    (∃ options, optionsOf cube r q = .ok options) ↔
      (∃ specs, Tidy.PropertySpec.parseAll cube (q.axisLevels.filterMap id) r.properties = .ok specs) ∧
      ∃ overrides,
        Tidy.CaptionOverrides.parse cube (q.axisLevels.filterMap id) r.caption = .ok overrides := by
  simp only [optionsOf, bind_eq_ok]
  constructor
  · intro h
    obtain ⟨options, specs, hspecs, overrides, hoverrides, -⟩ := h
    exact ⟨⟨specs, hspecs⟩, overrides, hoverrides⟩
  · intro h
    obtain ⟨⟨specs, hspecs⟩, overrides, hoverrides⟩ := h
    exact ⟨_, specs, hspecs, overrides, hoverrides, rfl⟩

/-- A query is executed once, before any parent is asked for. -/
theorem runQuery_traced (q : CompiledQuery) (before : List Call) (s : σ) :
    ∃ parents, (runQuery engine.traced cube r q).run (s, before) =
        (((runQuery engine cube r q).run s).1, ((runQuery engine cube r q).run s).2,
          before ++ .execute cube.name q.text :: parents) ∧
      ∀ c ∈ parents, r.parents = true ∧
        ∃ raw t, (engine.execute cube.name q.text).run s = (.ok raw, t) ∧
          c.IsParentLookup cube.name (completeResult q raw) := by
  have hexecute : (engine.traced.execute cube.name q.text).toQuery.run (s, before) =
      (((engine.execute cube.name q.text).toQuery.run s).1,
        ((engine.execute cube.name q.text).toQuery.run s).2,
        before ++ [.execute cube.name q.text]) := rfl
  rw [runQuery_eq, runQuery_eq, bind_run, bind_run, hexecute, toQuery_run]
  rcases (engine.execute cube.name q.text).run s with ⟨answer, t⟩
  cases answer with
  | error e => exact ⟨[], rfl, by simp⟩
  | ok raw =>
      obtain ⟨parents, hparents, hlookups⟩ :=
        complete_traced engine cube r q raw (before ++ [.execute cube.name q.text]) t
      refine ⟨parents, ?_, fun c hc => ⟨(hlookups c hc).1, raw, t, rfl, (hlookups c hc).2⟩⟩
      have hcalls : before ++ .execute cube.name q.text :: parents =
          before ++ [.execute cube.name q.text] ++ parents := List.append_cons before _ parents
      rw [hcalls]
      exact hparents

section Cases

variable {engine : Engine σ} {cube : Cube} {r : Request} {q : CompiledQuery} {s t : σ}

theorem run_of_compile_error {e : QueryError} (h : (compile engine cube r).run s = (.error e, t)) :
    (run engine cube r).run s = (.error e, t) := by
  rw [run, bind_run, h]

theorem run_of_options_error {e : QueryError} (h : (compile engine cube r).run s = (.ok q, t))
    (hoptions : optionsOf cube r q = .error e) : (run engine cube r).run s = (.error e, t) := by
  rw [run, bind_run, h]
  dsimp only
  rw [hoptions]
  rfl

theorem run_of_options {options : Tidy.Options} (h : (compile engine cube r).run s = (.ok q, t))
    (hoptions : optionsOf cube r q = .ok options) :
    (run engine cube r).run s =
      (((runQuery engine cube r q).run t).1.map (⟨cube, q, ·, options⟩),
        ((runQuery engine cube r q).run t).2) := by
  rw [run, bind_run, h]
  dsimp only
  rw [hoptions]
  show (runQuery engine cube r q >>= _).run t = _
  rw [bind_run]
  rcases (runQuery engine cube r q).run t with ⟨outcome, u⟩
  cases outcome <;> rfl

end Cases

/-- The calls of a request on a cube: those of its compilation, then the execution if everything has
been checked, then parents. -/
theorem run_traced (before : List Call) (s : σ) :
    ∃ lookups rest, (run engine.traced cube r).run (s, before) =
        (((run engine cube r).run s).1, ((run engine cube r).run s).2, before ++ (lookups ++ rest)) ∧
      (compile engine.traced cube r).run (s, before) =
        (((compile engine cube r).run s).1, ((compile engine cube r).run s).2, before ++ lookups) ∧
      (∀ c ∈ lookups, c.IsCutLookup cube r) ∧
      ((¬ ∃ q t, Validated engine cube r s q t) → rest = []) ∧
      ∀ q t, Validated engine cube r s q t → ∃ parents, rest = .execute cube.name q.text :: parents ∧
        ∀ c ∈ parents, r.parents = true ∧
          ∃ raw u, (engine.execute cube.name q.text).run t = (.ok raw, u) ∧
            c.IsParentLookup cube.name (completeResult q raw) := by
  obtain ⟨lookups, hcompile, hlookups⟩ := compile_traced engine cube r before s
  refine ⟨lookups, ?_⟩
  rcases hrun : (compile engine cube r).run s with ⟨outcome, t⟩
  rw [hrun] at hcompile
  have hunique : ∀ q u, Validated engine cube r s q u → outcome = .ok q ∧ t = u := by
    intro q u h
    exact Prod.mk.inj (hrun.symm.trans h.compiled)
  cases outcome with
  | error e =>
      rw [run_of_compile_error hcompile, run_of_compile_error hrun]
      refine ⟨[], by rw [List.append_nil], hcompile, hlookups, fun _ => rfl, fun q u h => ?_⟩
      cases (hunique q u h).1
  | ok q =>
      cases hoptions : optionsOf cube r q with
      | error e =>
          rw [run_of_options_error hcompile hoptions, run_of_options_error hrun hoptions]
          refine ⟨[], by rw [List.append_nil], hcompile, hlookups, fun _ => rfl, fun q' u h => ?_⟩
          cases (hunique q' u h).1
          obtain ⟨options, hok⟩ := exists_optionsOf_iff.2 ⟨h.properties, h.captions⟩
          cases hoptions.symm.trans hok
      | ok options =>
          obtain ⟨hproperties, hcaptions⟩ := exists_optionsOf_iff.1 ⟨options, hoptions⟩
          obtain ⟨parents, hquery, hparents⟩ := runQuery_traced engine cube r q (before ++ lookups) t
          rw [run_of_options hcompile hoptions, run_of_options hrun hoptions, hquery]
          refine ⟨.execute cube.name q.text :: parents, by rw [List.append_assoc], hcompile, hlookups,
            fun h => (h ⟨q, t, hrun, hproperties, hcaptions⟩).elim, fun q' u h => ?_⟩
          obtain ⟨hq, rfl⟩ := hunique q' u h
          cases hq
          exact ⟨parents, rfl, hparents⟩

end Aggregation

/-! ## Sessions -/

section Sessions

variable {σ τ : Type} (session : Session σ) (name : String) (r : Request) (before : List Call)
  (s : SessionState σ)

theorem cube_traced :
    (session.traced.cube name).run (s.traced before) =
      (((session.cube name).run s).1, ((session.cube name).run s).2.traced
        (before ++ if (session.kept? name s).isSome then [] else [.cube name])) := by
  cases hkept : session.kept? name s with
  | some cube =>
      rw [cube_run_of_kept session s hkept, cube_run_of_kept session.traced (s.traced before) hkept]
      simp
  | none =>
      rcases hanswer : (session.engine.cube name).run s.engine with ⟨answer, engine⟩
      have hcall : (session.traced.engine.cube name).run (s.traced before).engine =
          (answer, engine, before ++ [.cube name]) :=
        (recorded_run _ _ before s.engine).trans (by rw [hanswer])
      rw [cube_run_of_not_kept session s hkept,
        cube_run_of_not_kept session.traced (s.traced before) hkept, hanswer, hcall]
      dsimp only
      cases judged name answer with
      | error e => rfl
      | ok cube =>
          cases hcaching : session.caching with
          | true => simp [Session.keep, Session.traced, SessionState.traced, hcaching]
          | false => simp [Session.keep, Session.traced, SessionState.traced, hcaching]

theorem compile_run_of_cube {cube : Cube} {u : SessionState σ}
    (h : (session.cube name).run s = (.ok cube, u)) :
    (session.compile name r).run s =
      (((Plan.compile session.engine cube r).run u.engine).1,
        ⟨((Plan.compile session.engine cube r).run u.engine).2, u.cubes⟩) := by
  rw [Session.compile, bind_run, h]
  exact onEngine_run u _

theorem aggregate_run_of_cube {cube : Cube} {u : SessionState σ}
    (h : (session.cube name).run s = (.ok cube, u)) :
    (session.aggregate name r).run s =
      (((Aggregation.run session.engine cube r).run u.engine).1,
        ⟨((Aggregation.run session.engine cube r).run u.engine).2, u.cubes⟩) := by
  rw [Session.aggregate, bind_run, h]
  exact onEngine_run u _

/-- The sessions come by the same metadata of a cube, and their engines answer alike for members. -/
def Session.AnswersAlike (other : Session τ) (t : SessionState τ) : Prop :=
  ∃ R : σ → τ → Prop, ((session.cube name).run s).1 = ((other.cube name).run t).1 ∧
    R ((session.cube name).run s).2.engine ((other.cube name).run t).2.engine ∧
    ∀ cube expression,
      Alike R (session.engine.member cube expression) (other.engine.member cube expression)

variable {session name s}

/-- Sessions that answer alike compile a request alike. -/
theorem compile_run_of_answersAlike {other : Session τ} {t : SessionState τ}
    (h : session.AnswersAlike name s other t) {cube : Cube} {u : SessionState σ}
    (hcube : (session.cube name).run s = (.ok cube, u)) :
    ((other.compile name r).run t).1 = ((Plan.compile session.engine cube r).run u.engine).1 := by
  obtain ⟨R, houtcome, hstates, hmember⟩ := h
  rcases hother : (other.cube name).run t with ⟨outcome, v⟩
  rw [hcube, hother] at houtcome hstates
  cases houtcome
  rw [compile_run_of_cube other name r t hother]
  exact ((compile_alike fun id _ => hmember cube.name id.text) u.engine v.engine hstates).1.symm

end Sessions

/-! ## Traces -/

section Traces

variable {σ : Type}

/-- The metadata of the cube is found and the request passes all that is checked before its execution. -/
def Session.Validates (session : Session σ) (name : String) (r : Request) (s : SessionState σ)
    (cube : Cube) (q : CompiledQuery) (t : σ) : Prop :=
  ∃ u, (session.cube name).run s = (.ok cube, u) ∧
    Aggregation.Validated session.engine cube r u.engine q t

/-- The calls of a request up to its execution, and the calls from there on. -/
structure Session.Trace (session : Session σ) (name : String) (r : Request) (s : SessionState σ)
    (earlier rest : List Call) : Prop where
  earlier : ∀ c ∈ earlier, c = .cube name ∨
    ∃ cube u, (session.cube name).run s = (.ok cube, u) ∧ c.IsCutLookup cube r
  refused : (¬ ∃ cube q t, session.Validates name r s cube q t) → rest = []
  executed : ∀ cube q t, session.Validates name r s cube q t →
    ∃ parents, rest = .execute cube.name q.text :: parents ∧
      ∀ c ∈ parents, r.parents = true ∧
        ∃ raw u, (session.engine.execute cube.name q.text).run t = (.ok raw, u) ∧
          c.IsParentLookup cube.name (Aggregation.completeResult q raw)

variable {session : Session σ} {name : String} {r : Request} {s : SessionState σ}
  {earlier rest : List Call}

theorem Session.Trace.countP_earlier (h : session.Trace name r s earlier rest) :
    earlier.countP (·.isExecute) = 0 := by
  refine Call.countP_isExecute_eq_zero fun c hc => ?_
  obtain rfl | ⟨cube, u, -, hlookup⟩ := h.earlier c hc
  · rfl
  · exact hlookup.isExecute_eq

theorem Session.Trace.countP_of_validates (h : session.Trace name r s earlier rest) {cube : Cube}
    {q : CompiledQuery} {t : σ} (hvalidates : session.Validates name r s cube q t) :
    (earlier ++ rest).countP (·.isExecute) = 1 := by
  obtain ⟨parents, rfl, hparents⟩ := h.executed cube q t hvalidates
  have hlater : parents.countP (·.isExecute) = 0 := by
    refine Call.countP_isExecute_eq_zero fun c hc => ?_
    obtain ⟨-, raw, u, -, hlookup⟩ := hparents c hc
    exact hlookup.isExecute_eq
  rw [List.countP_append, h.countP_earlier, List.countP_cons_of_pos (by rfl), hlater]

theorem Session.Trace.countP_of_refused (h : session.Trace name r s earlier rest)
    (hrefused : ¬ ∃ cube q t, session.Validates name r s cube q t) :
    (earlier ++ rest).countP (·.isExecute) = 0 := by
  rw [h.refused hrefused, List.append_nil, h.countP_earlier]

variable (session name r s) in
/-- With a record, a request runs as without, and what it adds is its trace, which begins with the calls
of its compilation. -/
theorem exists_trace (before : List Call) :
    ∃ earlier rest,
      (session.traced.aggregate name r).run (s.traced before) =
        (((session.aggregate name r).run s).1,
          ((session.aggregate name r).run s).2.traced (before ++ (earlier ++ rest))) ∧
      (session.traced.compile name r).run (s.traced before) =
        (((session.compile name r).run s).1,
          ((session.compile name r).run s).2.traced (before ++ earlier)) ∧
      session.Trace name r s earlier rest := by
  have htraced := cube_traced session name before s
  generalize hmetadata : (if (session.kept? name s).isSome then [] else [Call.cube name]) = metadata
    at htraced
  have hfirst : ∀ c ∈ metadata, c = .cube name := by
    intro c hc
    rw [← hmetadata] at hc
    split at hc
    · cases hc
    · exact List.mem_singleton.1 hc
  rcases hcube : (session.cube name).run s with ⟨outcome, u⟩
  rw [hcube] at htraced
  have hfound : ∀ cube q t, session.Validates name r s cube q t → outcome = .ok cube ∧
      Aggregation.Validated session.engine cube r u.engine q t := by
    intro cube q t h
    obtain ⟨v, hv, hvalidated⟩ := h
    cases hcube.symm.trans hv
    exact ⟨rfl, hvalidated⟩
  -- Without the cube nothing else is called; with it the calls are those of the request on the cube.
  cases outcome with
  | error e =>
      refine ⟨metadata, [], ?_, ?_, fun c hc => .inl (hfirst c hc), fun _ => rfl, fun cube q t h => ?_⟩
      · rw [Session.aggregate, Session.aggregate, bind_run, bind_run, hcube, htraced, List.append_nil]
      · rw [Session.compile, Session.compile, bind_run, bind_run, hcube, htraced]
      · cases (hfound cube q t h).1
  | ok cube =>
      obtain ⟨lookups, rest, hrun, hcompile, hlookups, hrefused, hexecuted⟩ :=
        Aggregation.run_traced session.engine cube r (before ++ metadata) u.engine
      refine ⟨metadata ++ lookups, rest, ?_, ?_, fun c hc => ?_, fun h => ?_, fun cube' q t h => ?_⟩
      · rw [aggregate_run_of_cube session name r s hcube,
          aggregate_run_of_cube session.traced name r (s.traced before) htraced]
        simp only [Session.traced, SessionState.traced, hrun, List.append_assoc]
      · rw [compile_run_of_cube session name r s hcube,
          compile_run_of_cube session.traced name r (s.traced before) htraced]
        simp only [Session.traced, SessionState.traced, hcompile, List.append_assoc]
      · obtain hc | hc := List.mem_append.1 hc
        · exact .inl (hfirst c hc)
        · exact .inr ⟨cube, u, hcube, hlookups c hc⟩
      · refine hrefused fun hvalidated => h ?_
        obtain ⟨q, t, hvalidated⟩ := hvalidated
        exact ⟨cube, q, t, u, hcube, hvalidated⟩
      · obtain ⟨hcube', hvalidated⟩ := hfound cube' q t h
        cases hcube'
        exact hexecuted q t hvalidated

/-- An aggregate request makes the calls of its compilation and then, exactly if the metadata of the cube
is found, the request compiles and its properties and captions are valid, executes one text, after which
it asks for parents only. The text is that of the compiled query, which every session compiles that has
the same answers for the cube and for members. -/
theorem aggregate_executes_validated (session : Session σ) (name : String) (r : Request)
    (s : SessionState σ) (before : List Call) :
    ∃ earlier rest,
      (session.traced.aggregate name r).run (s.traced before) =
        (((session.aggregate name r).run s).1,
          ((session.aggregate name r).run s).2.traced (before ++ (earlier ++ rest))) ∧
      (session.traced.compile name r).run (s.traced before) =
        (((session.compile name r).run s).1,
          ((session.compile name r).run s).2.traced (before ++ earlier)) ∧
      session.Trace name r s earlier rest ∧
      (earlier ++ rest).countP (·.isExecute) ≤ 1 ∧
      ((earlier ++ rest).countP (·.isExecute) = 1 ↔
        ∃ cube q t, session.Validates name r s cube q t) ∧
      ∀ cube q t, session.Validates name r s cube q t →
        ∀ (τ : Type) (other : Session τ) (u : SessionState τ), session.AnswersAlike name s other u →
          ((other.compile name r).run u).1 = .ok q := by
  obtain ⟨earlier, rest, haggregate, hcompile, htrace⟩ := exists_trace session name r s before
  refine ⟨earlier, rest, haggregate, hcompile, htrace, ?_⟩
  refine ⟨?_, ?_, fun cube q t h τ other u halike => ?_⟩
  · by_cases hvalidates : ∃ cube q t, session.Validates name r s cube q t
    · obtain ⟨cube, q, t, h⟩ := hvalidates
      exact Nat.le_of_eq (htrace.countP_of_validates h)
    · rw [htrace.countP_of_refused hvalidates]
      exact Nat.zero_le 1
  · constructor
    · intro hone
      by_contra hrefused
      rw [htrace.countP_of_refused hrefused] at hone
      exact Nat.zero_ne_one hone
    · intro h
      obtain ⟨cube, q, t, h⟩ := h
      exact htrace.countP_of_validates h
  · obtain ⟨v, hcube, hvalidated⟩ := h
    rw [compile_run_of_answersAlike r halike hcube, hvalidated.compiled]

end Traces

/-- Stores by state, each below a country that has no ancestors. -/
def storeEngine : Engine Unit where
  cubeNames := pure ["Sales"]
  cube _ := pure (some { Tidy.storeCube with
    measures := [⟨"Units", "Units", "[Measures].[Units]", true, .empty⟩] })
  member _ _ := pure (some (Tidy.storeMember "CA" 2 "State"))
  ancestors _ _ := pure []
  children _ _ := pure []
  levelMembers _ _ := pure []
  execute _ _ := pure ⟨[.ofMembers [.ofMeasure "Units" "[Measures].[Units]" "Units"],
    .ofMembers [{ Tidy.storeMember "CA" 2 "State" with parentName := some "USA" }]],
    .dense [.int 3], none⟩
  flush := pure ()

/-- A state with its parent: the metadata, the cut, the execution, the parent and its ancestors. -/
theorem aggregate_executes_validated_parents :
    let session : Session Unit := ⟨storeEngine, true⟩
    let r : Request := { Request.empty with
      drilldown := ["Store.State"], cut := ["Store.State.CA"], parents := true }
    ∃ cube q earlier rest,
      session.Validates "Sales" r (.initial ()) cube q () ∧
      ((session.traced.aggregate "Sales" r).run ((SessionState.initial ()).traced [])).2.engine.2 =
        earlier ++ rest ∧
      (earlier ++ rest).map (·.isExecute) = [false, false, true, false, false] ∧
      (earlier ++ rest).countP (·.isExecute) = 1 ∧ rest.head? = some (.execute cube.name q.text) := by
  intro session r
  obtain ⟨earlier, rest, haggregate, -, htrace, -, hcount, -⟩ :=
    aggregate_executes_validated session "Sales" r (.initial ()) []
  have hkinds : ((session.traced.aggregate "Sales" r).run
      ((SessionState.initial ()).traced [])).2.engine.2.map (·.isExecute) =
        [false, false, true, false, false] := by
    decide +kernel
  have hcalls : ((session.traced.aggregate "Sales" r).run
      ((SessionState.initial ()).traced [])).2.engine.2 = earlier ++ rest := by
    rw [haggregate]
    rfl
  rw [hcalls] at hkinds
  have hone : (earlier ++ rest).countP (·.isExecute) = 1 := by
    have hmap : (earlier ++ rest).countP (·.isExecute) =
        ((earlier ++ rest).map (·.isExecute)).countP id := by
      rw [List.countP_map, Function.id_comp]
    rw [hmap, hkinds]
    rfl
  obtain ⟨cube, q, t, hvalidates⟩ := hcount.1 hone
  obtain ⟨parents, hrest, -⟩ := htrace.executed cube q t hvalidates
  exact ⟨cube, q, earlier, rest, hvalidates, hcalls, hkinds, hone, by rw [hrest]; rfl⟩

end CubeQuery
