import CubeQuery.Aggregate
import CubeQuery.Proofs.Engine.Cache

/-!
# Actions that run alike

Two actions on different states run alike under a relation if from related states they have one outcome
and get to related states. Requests reach an engine through a few of its operations only: where these
are alike, compiling (`compile_alike`) and fetching ancestors (`fetchParents_alike`) are.
-/

namespace CubeQuery

namespace Action

variable {ε σ τ α β : Type}

/-- From related states the actions have the same outcome, and they leave related states. -/
def Alike (R : σ → τ → Prop) (x : Action ε σ α) (y : Action ε τ α) : Prop :=
  ∀ s t, R s t → (x.run s).1 = (y.run t).1 ∧ R (x.run s).2 (y.run t).2

namespace Alike

variable {R : σ → τ → Prop}

theorem pure (a : α) : Alike R (pure a : Action ε σ α) (pure a) := fun _ _ h => ⟨rfl, h⟩

theorem throw (e : ε) : Alike R (throw e : Action ε σ α) (throw e) := fun _ _ h => ⟨rfl, h⟩

theorem ofExcept (outcome : Except ε α) :
    Alike R (ofExcept outcome : Action ε σ α) (ofExcept outcome) := fun _ _ h => ⟨rfl, h⟩

theorem bind {x : Action ε σ α} {y : Action ε τ α} {f : α → Action ε σ β} {g : α → Action ε τ β}
    (hfirst : Alike R x y) (hrest : ∀ a, Alike R (f a) (g a)) : Alike R (x >>= f) (y >>= g) := by
  intro s t h
  obtain ⟨houtcome, hstate⟩ := hfirst s t h
  rw [bind_run, bind_run]
  rcases hx : x.run s with ⟨outcome, u⟩
  rcases hy : y.run t with ⟨outcome', v⟩
  rw [hx, hy] at houtcome hstate
  obtain rfl : outcome = outcome' := houtcome
  cases outcome with
  | error e => exact ⟨rfl, hstate⟩
  | ok a => exact hrest a u v hstate

/-- Actions that all run even after one has failed. -/
theorem all {ι : Type} {f : ι → Action ε σ α} {g : ι → Action ε τ α} {items : List ι}
    (h : ∀ i ∈ items, Alike R (f i) (g i)) :
    Alike R (Action.all (items.map f)) (Action.all (items.map g)) := by
  induction items with
  | nil => exact pure []
  | cons i rest ih =>
      intro s t hst
      obtain ⟨hfirst, hnext⟩ := h i List.mem_cons_self s t hst
      obtain ⟨hothers, hlast⟩ := ih (fun j hj => h j (List.mem_cons_of_mem i hj)) _ _ hnext
      rw [List.map_cons, List.map_cons, all_cons_run, all_cons_run]
      refine ⟨?_, hlast⟩
      rw [hfirst, hothers]

theorem toQuery {x : EngineM σ α} {y : EngineM τ α} (h : Alike R x y) :
    Alike R x.toQuery y.toQuery := by
  intro s t hst
  obtain ⟨houtcome, hstate⟩ := h s t hst
  rw [toQuery_run, toQuery_run, houtcome]
  exact ⟨rfl, hstate⟩

end Alike

end Action

open CubeQuery.Action

/-! ## Compiling -/

namespace Plan

open Mdx

def Cut.Reading.lookups : Cut.Reading → List Identifier
  | .namedSet _ => []
  | .pattern (.member x) => [x]
  | .pattern (.set xs) => xs
  | .pattern (.range low high) => [low, high]
  | .faulty f => f.lookups

def Request.lookups (cube : Cube) (r : Request) : List Identifier :=
  r.cut.flatMap fun e => (Cut.read cube (Text.trimmed e)).lookups

variable {σ τ : Type} {R : σ → τ → Prop} {engine : Engine σ} {other : Engine τ}

namespace Cut

theorem locate_alike {cube : String} {id : Identifier}
    (h : Alike R (engine.member cube id.text) (other.member cube id.text)) (context shown : String) :
    Alike R (locate engine cube context shown id) (locate other cube context shown id) := by
  refine h.toQuery.bind fun found => ?_
  cases found with
  | none => exact .throw _
  | some m => exact .pure _

theorem locateAll_alike {cube : String} {ids : List Identifier}
    (h : ∀ id ∈ ids, Alike R (engine.member cube id.text) (other.member cube id.text))
    (context : String) : Alike R (locateAll engine cube context ids) (locateAll other cube context ids) :=
  .all fun id hid => locate_alike (h id hid) context id.text

theorem locatePattern_alike {cube : String} {p : CutPattern}
    (h : ∀ id ∈ (Reading.pattern p).lookups,
      Alike R (engine.member cube id.text) (other.member cube id.text)) (expression : String) :
    Alike R (locatePattern engine cube expression p) (locatePattern other cube expression p) := by
  cases p with
  | member x =>
      exact (locate_alike (h x List.mem_cons_self) _ _).bind fun _ => .pure _
  | set xs =>
      refine (locateAll_alike h _).bind fun located => ?_
      split
      · exact .pure _
      · exact .throw _
  | range low high =>
      refine (locateAll_alike h _).bind fun located => ?_
      split
      · split
        · exact .pure _
        · exact .throw _
      · exact .throw _

theorem resolve_alike {cube : Cube} {expression : String}
    (h : ∀ id ∈ (read cube (Text.trimmed expression)).lookups,
      Alike R (engine.member cube.name id.text) (other.member cube.name id.text)) :
    Alike R (resolve engine cube expression) (resolve other cube expression) := by
  rw [resolve, resolve]
  generalize read cube (Text.trimmed expression) = reading at h
  cases reading with
  | namedSet anchor => exact .pure _
  | pattern p => exact (locatePattern_alike h _).bind fun _ => .pure _
  | faulty f => exact (locateAll_alike h _).bind fun _ => .throw _

theorem mem_of_mem_untilFaulty {cube : Cube} {expressions : List String} {e : String}
    (h : e ∈ untilFaulty cube expressions) : e ∈ expressions := by
  induction expressions with
  | nil => exact h
  | cons first rest ih =>
      rw [untilFaulty] at h
      split at h
      · rw [List.mem_singleton.1 h]
        exact List.mem_cons_self
      · obtain rfl | hrest := List.mem_cons.1 h
        · exact List.mem_cons_self
        · exact List.mem_cons_of_mem first (ih hrest)

end Cut

/-- Engines that answer alike for the members of the cuts compile a request alike. -/
theorem compile_alike {cube : Cube} {r : Request}
    (h : ∀ id ∈ r.lookups cube,
      Alike R (engine.member cube.name id.text) (other.member cube.name id.text)) :
    Alike R (compile engine cube r) (compile other cube r) := by
  refine (Alike.ofExcept _).bind fun measures => (Alike.ofExcept _).bind fun drilldowns => ?_
  refine Alike.bind (.all fun e he => ?_) fun cuts => .ofExcept _
  exact Cut.resolve_alike fun id hid =>
    h id (List.mem_flatMap.2 ⟨e, Cut.mem_of_mem_untilFaulty he, hid⟩)

end Plan

/-! ## Ancestors -/

section Ancestors

variable {σ τ : Type} {R : σ → τ → Prop} {engine : Engine σ} {other : Engine τ}

/-- Engines that answer alike for parents and for their ancestors complete a result alike. -/
theorem Aggregation.fetchParents_alike {cube : String} {r : CellResult}
    (hmember : ∀ parent ∈ parentNames r, Alike R (engine.member cube parent) (other.member cube parent))
    (hancestors : ∀ m, Alike R (engine.ancestors cube m) (other.ancestors cube m)) :
    Alike R (fetchParents engine cube r) (fetchParents other cube r) := by
  refine Alike.bind (.all fun parent hparent => ?_) fun chains => .pure _
  refine (hmember parent hparent).toQuery.bind fun found => ?_
  cases found with
  | none => exact .pure _
  | some m => exact (hancestors m).toQuery.bind fun _ => .pure _

end Ancestors

end CubeQuery
