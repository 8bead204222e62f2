import Mathlib.Logic.Function.Basic
import CubeQuery.Engine.Session

/-!
# Overlapping calls

Clones of a session share its engine and its cubes, so that calls may overlap. A call goes on by
steps, and between them come the steps of others.
-/

namespace CubeQuery

inductive Progress where
  | unstarted
  | asking (name : String)
  /-- The engine has given the cube, which is still to be kept. -/
  | answered (name : String) (cube : Cube)
  /-- The engine has been flushed, and the kept cubes are still there. -/
  | clearing
  | returned

/-- The state of a session with its calls, by number. -/
structure Overlap (σ : Type) where
  state : SessionState σ
  calls : Nat → Progress

namespace Overlap

inductive Event where
  /-- A call finds a kept cube and returns it. -/
  | hit (call : Nat) (name : String) (cube : Cube)
  | missed (call : Nat) (name : String)
  /-- The engine gives the cube of a call; the call returns if it fails. -/
  | answered (call : Nat) (name : String) (outcome : Except QueryError Cube)
  /-- A call keeps its cube and returns it. -/
  | stored (call : Nat) (name : String) (cube : Cube)
  /-- A flush begins with the engine; it returns if that fails. -/
  | flushed (call : Nat) (outcome : Except QueryError Unit)
  /-- A flush forgets the kept cubes and returns. -/
  | cleared (call : Nat)
  /-- The engine changes by itself. -/
  | changed

variable {σ : Type}

def initial (engine : σ) : Overlap σ := ⟨.initial engine, fun _ => .unstarted⟩

def put (x : Overlap σ) (state : SessionState σ) (call : Nat) (progress : Progress) : Overlap σ :=
  ⟨state, Function.update x.calls call progress⟩

end Overlap

namespace Session

open Overlap (Event)

variable {σ : Type}

/-- The steps of `cube` and `flush`, cut where they wait for the engine. -/
inductive Step (session : Session σ) : Event → Overlap σ → Overlap σ → Prop where
  | hit {x : Overlap σ} {call : Nat} {name : String} {cube : Cube}
      (hnew : x.calls call = .unstarted) (hkept : session.kept? name x.state = some cube) :
      Step session (.hit call name cube) x (x.put x.state call .returned)
  | missed {x : Overlap σ} {call : Nat} {name : String} (hnew : x.calls call = .unstarted)
      (hkept : session.kept? name x.state = none) :
      Step session (.missed call name) x (x.put x.state call (.asking name))
  | answered {x : Overlap σ} {s : SessionState σ} {call : Nat} {name : String} {cube : Cube}
      (hasking : x.calls call = .asking name)
      (hrun : (SessionM.onEngine (session.fetchCube name)).run x.state = (.ok cube, s)) :
      Step session (.answered call name (.ok cube)) x (x.put s call (.answered name cube))
  | refused {x : Overlap σ} {s : SessionState σ} {call : Nat} {name : String} {e : QueryError}
      (hasking : x.calls call = .asking name)
      (hrun : (SessionM.onEngine (session.fetchCube name)).run x.state = (.error e, s)) :
      Step session (.answered call name (.error e)) x (x.put s call .returned)
  | stored {x : Overlap σ} {call : Nat} {name : String} {cube : Cube}
      (hanswered : x.calls call = .answered name cube) :
      Step session (.stored call name cube) x
        (x.put (session.keep name cube x.state) call .returned)
  | flushed {x : Overlap σ} {s : SessionState σ} {call : Nat} (hnew : x.calls call = .unstarted)
      (hrun : (SessionM.onEngine session.engine.flush.toQuery).run x.state = (.ok (), s)) :
      Step session (.flushed call (.ok ())) x (x.put s call .clearing)
  | unflushed {x : Overlap σ} {s : SessionState σ} {call : Nat} {e : QueryError}
      (hnew : x.calls call = .unstarted)
      (hrun : (SessionM.onEngine session.engine.flush.toQuery).run x.state = (.error e, s)) :
      Step session (.flushed call (.error e)) x (x.put s call .returned)
  | cleared {x : Overlap σ} {call : Nat} (hclearing : x.calls call = .clearing) :
      Step session (.cleared call) x (x.put { x.state with cubes := NameMap.empty } call .returned)
  | changed {x : Overlap σ} (engine : σ) :
      Step session .changed x { x with state := { x.state with engine } }

def Run (session : Session σ) : Overlap σ → List Event → Overlap σ → Prop
  | x, [], y => x = y
  | x, e :: rest, z => ∃ y, session.Step e x y ∧ session.Run y rest z

end Session

end CubeQuery
