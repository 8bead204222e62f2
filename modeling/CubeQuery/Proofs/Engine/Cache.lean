import CubeQuery.Engine.Session
import CubeQuery.Proofs.Outcome

/-!
# What a session serves

A session that keeps cubes serves the first answer it has had for a cube since it was last flushed, and
asks its engine only where there is none (`cube_serves_first_answer`). The history of a session decides
what it keeps (`Session.Reaches.find?_cubes`).
-/

namespace CubeQuery

inductive Event where
  | cube (name : String) (outcome : Except QueryError Cube)
  | flush (outcome : Except QueryError Unit)

namespace Event

def isFlushed : Event → Bool
  | .flush (.ok _) => true
  | _ => false

def answer? (name : String) : Event → Option Cube
  | .cube asked (.ok given) => if asked = name then some given else none
  | _ => none

end Event

/-- The events after the last flush that has succeeded, or all if none has. -/
def sinceFlush (history : List Event) : List Event :=
  (history.reverse.takeWhile fun e => !e.isFlushed).reverse

/-- The first answer for a cube since the last flush. -/
def firstAnswer? (name : String) (history : List Event) : Option Cube :=
  (sinceFlush history).findSome? (Event.answer? name)

/-- What an answer of the engine for a cube comes to. -/
def judged (name : String) : Except EngineError (Option Cube) → Except QueryError Cube
  | .ok (some cube) => .ok cube.completed
  | .ok none => .error (.unknownCube name)
  | .error e => .error (.engine e)

namespace Session

variable {σ : Type}

/-- The states that a session gets to, each with the calls so far. The engine may change between calls
as it likes. -/
inductive Reaches (session : Session σ) (engine : σ) : List Event → SessionState σ → Prop where
  | created : Reaches session engine [] (.initial engine)
  | cube {history : List Event} {s t : SessionState σ} {name : String}
      {outcome : Except QueryError Cube} (before : Reaches session engine history s)
      (hrun : (session.cube name).run s = (outcome, t)) :
      Reaches session engine (history ++ [.cube name outcome]) t
  | flush {history : List Event} {s t : SessionState σ} {outcome : Except QueryError Unit}
      (before : Reaches session engine history s) (hrun : session.flush.run s = (outcome, t)) :
      Reaches session engine (history ++ [.flush outcome]) t
  | meanwhile {history : List Event} {s : SessionState σ} (before : Reaches session engine history s)
      (changed : σ) : Reaches session engine history { s with engine := changed }

end Session

/-! ## Histories -/

theorem sinceFlush_append (history : List Event) (e : Event) :
    sinceFlush (history ++ [e]) = if e.isFlushed then [] else sinceFlush history ++ [e] := by
  rw [sinceFlush, List.reverse_append, List.reverse_singleton, List.singleton_append,
    List.takeWhile_cons]
  cases e.isFlushed <;> simp [sinceFlush]

theorem firstAnswer?_append (name : String) (history : List Event) (e : Event) :
    firstAnswer? name (history ++ [e]) =
      if e.isFlushed then none else (firstAnswer? name history).or (e.answer? name) := by
  rw [firstAnswer?, sinceFlush_append]
  split
  · rfl
  · rw [List.findSome?_append, List.findSome?_singleton]
    rfl

theorem of_answer?_eq_some {asked name : String} {outcome : Except QueryError Cube} {cube : Cube}
    (h : (Event.cube asked outcome).answer? name = some cube) : asked = name ∧ outcome = .ok cube := by
  cases outcome with
  | error e => cases h
  | ok given =>
      rw [Event.answer?] at h
      split at h <;> cases h
      rename_i hname
      exact ⟨hname, rfl⟩

/-! ## Single calls -/

section Calls

variable {σ : Type} (session : Session σ) (s : SessionState σ)

theorem toQuery_run {α : Type} (action : EngineM σ α) (engine : σ) :
    action.toQuery.run engine =
      ((action.run engine).1.mapError QueryError.engine, (action.run engine).2) := rfl

theorem toQuery_run_eq_ok {α : Type} {action : EngineM σ α} {a : α} {engine next : σ} :
    action.toQuery.run engine = (.ok a, next) ↔ action.run engine = (.ok a, next) := by
  rw [toQuery_run]
  rcases action.run engine with ⟨answer, after⟩
  cases answer with
  | error e =>
      constructor
      · intro h
        cases h
      · intro h
        cases h
  | ok found =>
      constructor
      · intro h
        cases h
        rfl
      · intro h
        cases h
        rfl

theorem onEngine_run {α : Type} (action : QueryM σ α) :
    (SessionM.onEngine action).run s =
      ((action.run s.engine).1, { s with engine := (action.run s.engine).2 }) := rfl

theorem fetchCube_run (name : String) (engine : σ) :
    (session.fetchCube name).run engine =
      (judged name ((session.engine.cube name).run engine).1,
        ((session.engine.cube name).run engine).2) := by
  rw [Session.fetchCube, Action.bind_run, toQuery_run]
  rcases (session.engine.cube name).run engine with ⟨answer, next⟩
  cases answer with
  | error e => rfl
  | ok found => cases found <;> rfl

theorem cube_run (name : String) :
    (session.cube name).run s = (match session.kept? name s with
      | some cube => (pure cube : SessionM σ Cube)
      | none => do
        let cube ← SessionM.onEngine (session.fetchCube name)
        modify (session.keep name cube)
        return cube).run s := rfl

theorem cube_run_of_kept {name : String} {cube : Cube} (h : session.kept? name s = some cube) :
    (session.cube name).run s = (.ok cube, s) := by
  rw [cube_run, h]
  rfl

theorem cube_run_of_not_kept {name : String} (h : session.kept? name s = none) :
    (session.cube name).run s =
      match (session.engine.cube name).run s.engine with
      | (answer, engine) =>
        match judged name answer with
        | .ok cube => (.ok cube, session.keep name cube { s with engine })
        | .error e => (.error e, { s with engine }) := by
  rw [cube_run, h]
  dsimp only
  rw [Action.bind_run, onEngine_run, fetchCube_run]
  rcases (session.engine.cube name).run s.engine with ⟨answer, engine⟩
  dsimp only
  cases judged name answer <;> rfl

theorem flush_run :
    session.flush.run s =
      match session.engine.flush.run s.engine with
      | (.ok (), engine) => (.ok (), ⟨engine, NameMap.empty⟩)
      | (.error e, engine) => (.error (.engine e), { s with engine }) := by
  rw [Session.flush, Action.bind_run, onEngine_run, toQuery_run]
  rcases session.engine.flush.run s.engine with ⟨outcome, engine⟩
  cases outcome <;> rfl

end Calls

/-! ## Runs -/

section Runs

variable {σ : Type} {session : Session σ} {engine : σ} {history : List Event} {s : SessionState σ}

/-- One call of `cube` keeps exactly what it is the first to give. -/
theorem find?_cubes_of_cube_run {t : SessionState σ} {asked : String}
    {outcome : Except QueryError Cube} (hcaching : session.caching = true)
    (hrun : (session.cube asked).run s = (outcome, t)) (name : String) :
    t.cubes.find? name =
      (s.cubes.find? name).or ((Event.cube asked outcome).answer? name) := by
  have hkept : session.kept? asked s = s.cubes.find? asked := if_pos hcaching
  cases hfound : s.cubes.find? asked with
  | some cube =>
      rw [cube_run_of_kept session s (hkept.trans hfound)] at hrun
      cases hrun
      by_cases hname : asked = name
      · rw [← hname, hfound, Option.some_or]
      · rw [Event.answer?, if_neg hname, Option.or_none]
  | none =>
      rw [cube_run_of_not_kept session s (hkept.trans hfound)] at hrun
      rcases hanswer : (session.engine.cube asked).run s.engine with ⟨answer, next⟩
      rw [hanswer] at hrun
      cases hjudged : judged asked answer with
      | error e =>
          simp only [hjudged] at hrun
          cases hrun
          exact (Option.or_none ..).symm
      | ok cube =>
          simp only [hjudged, Session.keep, if_pos hcaching] at hrun
          cases hrun
          by_cases hname : asked = name
          · subst hname
            rw [Event.answer?, if_pos rfl, NameMap.find?_insert_self, hfound, Option.none_or]
          · rw [Event.answer?, if_neg hname, NameMap.find?_insert_of_ne _ _ (Ne.symm hname),
              Option.or_none]

theorem cubes_of_flush_run {t : SessionState σ} {outcome : Except QueryError Unit}
    (hrun : session.flush.run s = (outcome, t)) :
    t.cubes = if (Event.flush outcome).isFlushed then NameMap.empty else s.cubes := by
  rw [flush_run] at hrun
  rcases hanswer : session.engine.flush.run s.engine with ⟨_ | _, next⟩ <;> rw [hanswer] at hrun <;>
    cases hrun <;> rfl

theorem Session.Reaches.find?_cubes (hcaching : session.caching = true)
    (h : session.Reaches engine history s) (name : String) :
    s.cubes.find? name = firstAnswer? name history := by
  induction h with
  | created => rfl
  | meanwhile _ _ ih => exact ih
  | cube _ hrun ih =>
      rw [firstAnswer?_append, if_neg (by simp [Event.isFlushed]), ← ih]
      exact find?_cubes_of_cube_run hcaching hrun name
  | flush _ hrun ih =>
      rw [firstAnswer?_append, cubes_of_flush_run hrun]
      split
      · rfl
      · exact ih.trans (Option.or_none ..).symm

theorem Session.Reaches.kept?_eq (hcaching : session.caching = true)
    (h : session.Reaches engine history s) (name : String) :
    session.kept? name s = firstAnswer? name history := by
  rw [Session.kept?, if_pos hcaching, h.find?_cubes hcaching]

/-- With caching, a cube that the history has an answer for is given without the engine, and any other
is asked for once, which changes what is kept only if it succeeds; without, the engine is asked always.
A flush that fails keeps everything, and one that succeeds nothing. -/
theorem cube_serves_first_answer (h : session.Reaches engine history s) (name : String) :
    (session.caching = true →
      (∀ cube, firstAnswer? name history = some cube → (session.cube name).run s = (.ok cube, s)) ∧
      (firstAnswer? name history = none → (session.cube name).run s =
        match (session.engine.cube name).run s.engine with
        | (answer, engine) =>
          match judged name answer with
          | .ok cube => (.ok cube, ⟨engine, s.cubes.insert name cube⟩)
          | .error e => (.error e, ⟨engine, s.cubes⟩))) ∧
    (session.caching = false → (session.cube name).run s =
      match (session.engine.cube name).run s.engine with
      | (answer, engine) => (judged name answer, ⟨engine, s.cubes⟩)) ∧
    session.flush.run s =
      match session.engine.flush.run s.engine with
      | (.ok (), engine) => (.ok (), ⟨engine, NameMap.empty⟩)
      | (.error e, engine) => (.error (.engine e), ⟨engine, s.cubes⟩) := by
  refine ⟨fun hcaching => ⟨fun cube hfirst => ?_, fun hfirst => ?_⟩, fun hcaching => ?_,
    flush_run session s⟩
  · exact cube_run_of_kept session s ((h.kept?_eq hcaching name).trans hfirst)
  · rw [cube_run_of_not_kept session s ((h.kept?_eq hcaching name).trans hfirst)]
    simp only [Session.keep, if_pos hcaching]
  · have hkept : session.kept? name s = none := by
      rw [Session.kept?, if_neg (by simp [hcaching])]
    rw [cube_run_of_not_kept session s hkept]
    rcases (session.engine.cube name).run s.engine with ⟨answer, next⟩
    cases hjudged : judged name answer <;> simp [hjudged, Session.keep, hcaching]

end Runs

/-- Gives one more measure at each call, and refuses every flush. -/
def growingEngine : Engine Nat where
  cubeNames := return ["Sales"]
  cube _ := do
    let calls ← get
    set (calls + 1)
    let units : Measure := ⟨"Units", "Units", "[Measures].[Units]", true, NameMap.empty⟩
    return some ⟨"Sales", NameMap.empty, [], List.replicate calls units, []⟩
  member _ _ := return none
  ancestors _ _ := return []
  children _ _ := return []
  levelMembers _ _ := return []
  execute _ _ := throw .endless
  flush := throw (.unsupported "flush")

theorem cube_serves_first_answer_refused_flush :
    ∃ (cube : Cube) (s : SessionState Nat),
      Session.Reaches ⟨growingEngine, true⟩ 1
        [.cube "Sales" (.ok cube), .flush (.error (.engine (.unsupported "flush")))] s ∧
      cube.measures.length = 1 ∧ s.engine = 2 ∧
      (Session.cube ⟨growingEngine, true⟩ "Sales").run s = (.ok cube, s) := by
  have hanswered : (Session.cube ⟨growingEngine, true⟩ "Sales").run (.initial 1) = _ := rfl
  have hreaches := (Session.Reaches.created.cube hanswered).flush rfl
  exact ⟨_, _, hreaches, rfl, rfl, ((cube_serves_first_answer hreaches "Sales").1 rfl).1 _ rfl⟩

end CubeQuery
