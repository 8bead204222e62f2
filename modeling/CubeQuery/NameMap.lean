import Std.Data.HashMap

/-!
# Maps from names

Finite maps kept as pairs in ascending order of their names, so that they are listed in that order.
-/

namespace CubeQuery

/-- Values by name, in ascending order of the names. -/
structure NameMap (α : Type) where
  entries : List (String × α)
deriving DecidableEq, Repr

namespace NameMap

variable {α : Type}

def empty : NameMap α := ⟨[]⟩

def isEmpty (m : NameMap α) : Bool := m.entries.isEmpty

def find? (m : NameMap α) (name : String) : Option α :=
  (m.entries.find? (·.1 == name)).map (·.2)

/-- Puts a pair in its place, replacing the value of an equal name. -/
def insertInto (name : String) (value : α) : List (String × α) → List (String × α)
  | [] => [(name, value)]
  | (n, v) :: rest =>
    if name = n then (name, value) :: rest
    else if name < n then (name, value) :: (n, v) :: rest
    else (n, v) :: insertInto name value rest

def insert (m : NameMap α) (name : String) (value : α) : NameMap α :=
  ⟨insertInto name value m.entries⟩

/-- The map of a list of pairs; of two pairs with one name the later counts. -/
def ofList (pairs : List (String × α)) : NameMap α :=
  pairs.foldl (fun m (name, value) => m.insert name value) empty

def map {β : Type} (f : α → β) (m : NameMap α) : NameMap β :=
  ⟨m.entries.map fun (name, value) => (name, f value)⟩

@[simp] theorem find?_empty (name : String) : (empty : NameMap α).find? name = none := rfl

theorem find?_insert_self (m : NameMap α) (name : String) (value : α) :
    (m.insert name value).find? name = some value := by
  obtain ⟨entries⟩ := m
  simp only [insert, find?]
  induction entries with
  | nil => simp [insertInto]
  | cons e rest ih =>
    obtain ⟨n, v⟩ := e
    unfold insertInto
    split
    · simp
    · split
      · simp
      · rename_i h _
        rw [List.find?_cons_of_neg (by simpa using Ne.symm h)]
        exact ih

theorem find?_insert_of_ne (m : NameMap α) {name other : String} (value : α) (h : other ≠ name) :
    (m.insert name value).find? other = m.find? other := by
  obtain ⟨entries⟩ := m
  simp only [insert, find?]
  induction entries with
  | nil => simp [insertInto, Ne.symm h]
  | cons e rest ih =>
    obtain ⟨n, v⟩ := e
    unfold insertInto
    split
    · rename_i hn
      subst hn
      rw [List.find?_cons_of_neg (by simpa using Ne.symm h),
        List.find?_cons_of_neg (by simpa using Ne.symm h)]
    · split
      · rw [List.find?_cons_of_neg (by simpa using Ne.symm h)]
      · by_cases hn : n = other
        · rw [List.find?_cons_of_pos (by simpa using hn), List.find?_cons_of_pos (by simpa using hn)]
        · rw [List.find?_cons_of_neg (by simpa using hn), List.find?_cons_of_neg (by simpa using hn)]
          exact ih

theorem find?_insert (m : NameMap α) (name other : String) (value : α) :
    (m.insert name value).find? other = if other = name then some value else m.find? other := by
  split
  · rename_i h
    rw [h, find?_insert_self]
  · rename_i h
    exact find?_insert_of_ne m value h

def table (m : NameMap α) : Std.HashMap String α :=
  m.entries.foldl (fun table (name, value) => table.insertIfNew name value) ∅

theorem getElem?_table (m : NameMap α) (name : String) : m.table[name]? = m.find? name := by
  obtain ⟨entries⟩ := m
  suffices h : ∀ table : Std.HashMap String α,
      (entries.foldl (fun table (name, value) => table.insertIfNew name value) table)[name]? =
        table[name]?.or ((entries.find? (·.1 == name)).map (·.2)) by
    simpa [table, find?] using h ∅
  induction entries with
  | nil => simp
  | cons e rest ih =>
    intro table
    obtain ⟨n, v⟩ := e
    rw [List.foldl_cons, ih, Std.HashMap.getElem?_insertIfNew]
    by_cases h : n = name
    · subst h
      by_cases hm : n ∈ table
      · rw [Std.HashMap.getElem?_eq_some_getElem hm]
        simp [hm]
      · simp [hm]
    · simp [h]

end NameMap

end CubeQuery
