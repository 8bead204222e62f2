import Mathlib.Data.List.Forall2
import CubeQuery.Engine.Basic

/-!
# Successful steps

A sequence of steps succeeds exactly when each step does. These lemmas take sequences apart; the
functions built from them are then never unfolded twice.
-/

namespace CubeQuery

variable {ε σ α β : Type}

theorem toOption_eq_some_iff {x : Except ε α} {a : α} : x.toOption = some a ↔ x = .ok a := by
  cases x with
  | error e => simp [Except.toOption]
  | ok a => simp [Except.toOption]

theorem bind_eq_ok {x : Except ε α} {f : α → Except ε β} {b : β} :
    x >>= f = .ok b ↔ ∃ a, x = .ok a ∧ f a = .ok b := by
  cases x with
  | error e => simp [bind, Except.bind]
  | ok a => simp [bind, Except.bind]

theorem bind_eq_error {x : Except ε α} {f : α → Except ε β} {e : ε} :
    x >>= f = .error e ↔ x = .error e ∨ ∃ a, x = .ok a ∧ f a = .error e := by
  cases x with
  | error e => simp [bind, Except.bind]
  | ok a => simp [bind, Except.bind]

theorem mapM_eq_ok {f : α → Except ε β} {as : List α} {bs : List β} :
    as.mapM f = .ok bs ↔ List.Forall₂ (fun a b => f a = .ok b) as bs := by
  induction as generalizing bs with
  | nil =>
      rw [List.mapM_nil, List.forall₂_nil_left_iff]
      constructor
      · intro h
        cases h
        rfl
      · intro h
        rw [h]
        rfl
  | cons a as ih =>
      simp only [List.mapM_cons, bind_eq_ok, List.forall₂_cons_left_iff, ← ih]
      constructor
      · intro h
        obtain ⟨b, hb, rest, hrest, h⟩ := h
        cases h
        exact ⟨b, rest, hb, hrest, rfl⟩
      · intro h
        obtain ⟨b, rest, hb, hrest, rfl⟩ := h
        exact ⟨b, hb, rest, hrest, rfl⟩

/-- Every result comes from an element. -/
theorem exists_of_mem_mapM {f : α → Except ε β} {as : List α} {bs : List β} (h : as.mapM f = .ok bs)
    {b : β} (hb : b ∈ bs) : ∃ a ∈ as, f a = .ok b := by
  have hpairs := mapM_eq_ok.1 h
  induction hpairs with
  | nil => simp at hb
  | cons hfirst hrest ih =>
      obtain rfl | hb := List.mem_cons.1 hb
      · exact ⟨_, List.mem_cons_self, hfirst⟩
      · obtain ⟨a, ha, hab⟩ := ih (mapM_eq_ok.2 hrest) hb
        exact ⟨a, List.mem_cons_of_mem _ ha, hab⟩

/-- Every element has a result at its place. -/
theorem exists_of_getElem?_mapM {f : α → Except ε β} {as : List α} {bs : List β}
    (h : as.mapM f = .ok bs) {i : Nat} {a : α} (ha : as[i]? = some a) :
    ∃ b, bs[i]? = some b ∧ f a = .ok b := by
  obtain ⟨hlength, hpairs⟩ := List.forall₂_iff_get.1 (mapM_eq_ok.1 h)
  obtain ⟨hi, rfl⟩ := List.getElem?_eq_some_iff.1 ha
  have hi' : i < bs.length := by rwa [← hlength]
  exact ⟨bs[i], List.getElem?_eq_getElem hi', hpairs i hi hi'⟩

/-- If every element has a result, all have one together. -/
theorem exists_mapM_eq_ok {f : α → Except ε β} {as : List α} (h : ∀ a ∈ as, ∃ b, f a = .ok b) :
    ∃ bs, as.mapM f = .ok bs := by
  induction as with
  | nil => exact ⟨[], rfl⟩
  | cons a as ih =>
      obtain ⟨⟨b, hb⟩, hmore⟩ := List.forall_mem_cons.1 h
      obtain ⟨bs, hbs⟩ := ih hmore
      exact ⟨b :: bs, mapM_eq_ok.2 (.cons hb (mapM_eq_ok.1 hbs))⟩

theorem mapM_eq_some_map {f : α → Option β} {g : α → β} {as : List α}
    (h : ∀ a ∈ as, f a = some (g a)) : as.mapM f = some (as.map g) := by
  induction as with
  | nil => rfl
  | cons a rest ih =>
      rw [List.mapM_cons, h a List.mem_cons_self, ih fun b hb => h b (List.mem_cons_of_mem a hb)]
      rfl

namespace Action

/-! ## Actions on a state -/

variable {s t : σ}

theorem bind_run {x : Action ε σ α} {f : α → Action ε σ β} :
    (x >>= f).run s = match x.run s with
      | (.ok a, u) => (f a).run u
      | (.error e, u) => (.error e, u) := by
  rw [ExceptT.run_bind]
  show (StateT.bind x.run _) s = _
  rw [StateT.bind]
  rcases hx : x.run s with ⟨outcome, u⟩
  cases outcome <;> rfl

theorem bind_run_eq_ok {x : Action ε σ α} {f : α → Action ε σ β} {b : β} :
    (x >>= f).run s = (.ok b, t) ↔
      ∃ a u, x.run s = (.ok a, u) ∧ (f a).run u = (.ok b, t) := by
  rw [bind_run]
  rcases x.run s with ⟨outcome, u⟩
  cases outcome with
  | error e =>
      constructor
      · intro h
        cases h
      · intro h
        obtain ⟨a, v, h, _⟩ := h
        cases h
  | ok a =>
      constructor
      · intro h
        exact ⟨a, u, rfl, h⟩
      · intro h
        obtain ⟨a', v, h, hf⟩ := h
        cases h
        exact hf

theorem bind_outcome_eq_ok {x : Action ε σ α} {f : α → Action ε σ β} {b : β} :
    ((x >>= f).run s).1 = .ok b ↔
      ∃ a, (x.run s).1 = .ok a ∧ ((f a).run (x.run s).2).1 = .ok b := by
  rw [bind_run]
  rcases x.run s with ⟨outcome, u⟩
  cases outcome <;> simp

theorem pure_run_eq_ok {a b : α} :
    (pure a : Action ε σ α).run s = (.ok b, t) ↔ a = b ∧ s = t := by
  show (Except.ok a, s) = (Except.ok b, t) ↔ _
  simp

theorem ofExcept_run_eq_ok {outcome : Except ε α} {a : α} :
    (ofExcept outcome : Action ε σ α).run s = (.ok a, t) ↔ outcome = .ok a ∧ s = t := by
  show (outcome, s) = (Except.ok a, t) ↔ _
  simp

theorem mapM_cons_run_eq_ok {f : α → Action ε σ β} {a : α} {as : List α} {bs : List β} :
    ((a :: as).mapM f).run s = (.ok bs, t) ↔
      ∃ b u rest, (f a).run s = (.ok b, u) ∧ (as.mapM f).run u = (.ok rest, t) ∧ b :: rest = bs := by
  simp only [List.mapM_cons, bind_run_eq_ok, pure_run_eq_ok]
  constructor
  · intro h
    obtain ⟨b, u, hb, rest, v, hrest, rfl, rfl⟩ := h
    exact ⟨b, u, rest, hb, hrest, rfl⟩
  · intro h
    obtain ⟨b, u, rest, hb, hrest, rfl⟩ := h
    exact ⟨b, u, hb, rest, t, hrest, rfl, rfl⟩

theorem combine_eq_ok {first : Except ε α} {others : Except ε (List α)} {as : List α} :
    combine first others = .ok as ↔ ∃ a rest, first = .ok a ∧ others = .ok rest ∧ a :: rest = as := by
  cases first <;> cases others <;> simp [combine]

theorem all_cons_run {x : Action ε σ α} {xs : List (Action ε σ α)} :
    (all (x :: xs)).run s =
      (combine (x.run s).1 ((all xs).run (x.run s).2).1, ((all xs).run (x.run s).2).2) := rfl

theorem all_cons_run_eq_ok {x : Action ε σ α} {xs : List (Action ε σ α)} {as : List α} :
    (all (x :: xs)).run s = (.ok as, t) ↔
      ∃ a u rest, x.run s = (.ok a, u) ∧ (all xs).run u = (.ok rest, t) ∧ a :: rest = as := by
  rw [all_cons_run, Prod.mk.injEq, combine_eq_ok]
  rcases x.run s with ⟨first, u⟩
  constructor
  · intro h
    obtain ⟨⟨a, rest, rfl, hrest, rfl⟩, ht⟩ := h
    exact ⟨a, u, rest, rfl, Prod.ext hrest ht, rfl⟩
  · intro h
    obtain ⟨a, v, rest, hx, hrest, rfl⟩ := h
    obtain ⟨rfl, rfl⟩ := Prod.mk.inj hx
    exact ⟨⟨a, rest, rfl, by rw [hrest], rfl⟩, by rw [hrest]⟩

end Action

end CubeQuery
