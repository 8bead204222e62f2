import Mathlib.Data.List.Basic

/-!
# Patterns with groups

Patterns of whole texts, and what they read in a text: each group that takes part is noted with its name
and what it has read. A text may be read in several ways; none of them is preferred.
-/

namespace CubeQuery.Text

inductive Pattern where
  /-- One character of a class. -/
  | one (p : Char → Bool)
  /-- Any number of characters of a class. -/
  | many (p : Char → Bool)
  | literal (text : String)
  | optional (x : Pattern)
  | either (x y : Pattern)
  | sequence (x y : Pattern)
  | group (name : String) (x : Pattern)

namespace Pattern

instance : Append Pattern := ⟨sequence⟩

/-- One character of a class or more. -/
def some (p : Char → Bool) : Pattern := one p ++ many p

abbrev Groups := List (String × List Char)

/-- The pattern reads the whole text, and its groups what is noted. -/
inductive Reads : Pattern → List Char → Groups → Prop
  | one {p : Char → Bool} {c : Char} (h : p c = true) : Reads (.one p) [c] []
  | many {p : Char → Bool} {cs : List Char} (h : ∀ c ∈ cs, p c = true) : Reads (.many p) cs []
  | literal {text : String} : Reads (.literal text) text.toList []
  | absent {x : Pattern} : Reads (.optional x) [] []
  | present {x : Pattern} {cs : List Char} {groups : Groups} (h : Reads x cs groups) :
      Reads (.optional x) cs groups
  | left {x y : Pattern} {cs : List Char} {groups : Groups} (h : Reads x cs groups) :
      Reads (.either x y) cs groups
  | right {x y : Pattern} {cs : List Char} {groups : Groups} (h : Reads y cs groups) :
      Reads (.either x y) cs groups
  | sequence {x y : Pattern} {cs ds : List Char} {first second : Groups} (hx : Reads x cs first)
      (hy : Reads y ds second) : Reads (.sequence x y) (cs ++ ds) (first ++ second)
  | group {name : String} {x : Pattern} {cs : List Char} {groups : Groups} (h : Reads x cs groups) :
      Reads (.group name x) cs ((name, cs) :: groups)

/-! ## What each form reads -/

section Forms

variable {p : Char → Bool} {x y : Pattern} {cs : List Char} {groups : Groups}

theorem reads_one_iff : (one p).Reads cs groups ↔ (∃ c, p c = true ∧ cs = [c]) ∧ groups = [] := by
  constructor
  · intro h
    cases h with
    | one hc => exact ⟨⟨_, hc, rfl⟩, rfl⟩
  · intro h
    obtain ⟨⟨c, hc, rfl⟩, rfl⟩ := h
    exact .one hc

theorem reads_many_iff : (many p).Reads cs groups ↔ (∀ c ∈ cs, p c = true) ∧ groups = [] := by
  constructor
  · intro h
    cases h with
    | many hcs => exact ⟨hcs, rfl⟩
  · intro h
    obtain ⟨hcs, rfl⟩ := h
    exact .many hcs

theorem reads_literal_iff {text : String} :
    (literal text).Reads cs groups ↔ cs = text.toList ∧ groups = [] := by
  constructor
  · intro h
    cases h
    exact ⟨rfl, rfl⟩
  · intro h
    obtain ⟨rfl, rfl⟩ := h
    exact .literal

theorem reads_optional_iff :
    (optional x).Reads cs groups ↔ (cs = [] ∧ groups = []) ∨ x.Reads cs groups := by
  constructor
  · intro h
    cases h with
    | absent => exact .inl ⟨rfl, rfl⟩
    | present hx => exact .inr hx
  · intro h
    rcases h with ⟨rfl, rfl⟩ | hx
    · exact .absent
    · exact .present hx

theorem reads_either_iff :
    (either x y).Reads cs groups ↔ x.Reads cs groups ∨ y.Reads cs groups := by
  constructor
  · intro h
    cases h with
    | left hx => exact .inl hx
    | right hy => exact .inr hy
  · intro h
    rcases h with hx | hy
    · exact .left hx
    · exact .right hy

theorem reads_append_iff :
    (x ++ y).Reads cs groups ↔ ∃ before after first second, cs = before ++ after ∧
      groups = first ++ second ∧ x.Reads before first ∧ y.Reads after second := by
  constructor
  · intro h
    cases h with
    | sequence hx hy => exact ⟨_, _, _, _, rfl, rfl, hx, hy⟩
  · intro h
    obtain ⟨before, after, first, second, rfl, rfl, hx, hy⟩ := h
    exact .sequence hx hy

theorem reads_some_iff :
    (some p).Reads cs groups ↔ cs ≠ [] ∧ (∀ c ∈ cs, p c = true) ∧ groups = [] := by
  rw [some, reads_append_iff]
  simp only [reads_one_iff, reads_many_iff]
  constructor
  · intro h
    obtain ⟨before, after, first, second, rfl, rfl, ⟨⟨c, hc, rfl⟩, rfl⟩, hafter, rfl⟩ := h
    exact ⟨by simp, by simpa using ⟨hc, hafter⟩, rfl⟩
  · intro h
    obtain ⟨hne, hcs, rfl⟩ := h
    obtain ⟨c, rest, rfl⟩ := List.exists_cons_of_ne_nil hne
    rw [List.forall_mem_cons] at hcs
    exact ⟨[c], rest, [], [], rfl, rfl, ⟨⟨c, hcs.1, rfl⟩, rfl⟩, hcs.2, rfl⟩

theorem reads_group_iff {name : String} :
    (group name x).Reads cs groups ↔ ∃ inner, groups = (name, cs) :: inner ∧ x.Reads cs inner := by
  constructor
  · intro h
    cases h with
    | group hx => exact ⟨_, rfl, hx⟩
  · intro h
    obtain ⟨inner, rfl, hx⟩ := h
    exact .group hx

end Forms

end Pattern

end CubeQuery.Text
