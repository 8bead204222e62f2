import CubeQuery.Text.CharClass

/-!
# References to variables

A text is split into plain characters and references to variables, and the values are put in the
places of the references. A value is taken as it is, even if it looks like a reference.
-/

namespace CubeQuery.Settings

abbrev Environment := String → Option String

/-- What follows `opening` in a line that begins with it. -/
def afterOpening? : List Char → List Char → Option (List Char)
  | [], cs => some cs
  | _ :: _, [] => none
  | o :: opening, c :: cs => if o = c then afterOpening? opening cs else none

/-- The environment written as lines `NAME=value`. -/
def Environment.ofLines (lines : List String) : Environment := fun name =>
  let opening := name.toList ++ ['=']
  if name.isEmpty then none
  else lines.findSome? fun line => (afterOpening? opening line.toList).map String.ofList

inductive Piece where
  | plain (c : Char)
  /-- A dollar sign with no name after it. -/
  | dollar
  | named (name : List Char)
  /-- A name in braces; the last one of a text need not be closed. -/
  | braced (name : List Char) (closed : Bool)
deriving DecidableEq, Repr

namespace Piece

def chars : Piece → List Char
  | plain c => [c]
  | dollar => ['$']
  | named name => '$' :: name
  | braced name closed => '$' :: '\x7b' :: (name ++ if closed then ['\x7d'] else [])

def reference? : Piece → Option String
  | plain _ => none
  | dollar => none
  | named name => some (String.ofList name)
  | braced name _ => some (String.ofList name)

end Piece

/-- Characters of a name without braces. -/
def isNameChar (c : Char) : Bool := Text.isAlphanumeric c || c == '_'

def notClosing (c : Char) : Bool := c != '\x7d'

/-- The piece that a dollar sign begins, and what is left after it. -/
def afterDollar : List Char → Piece × List Char
  | '\x7b' :: cs =>
    match cs.dropWhile notClosing with
    | _ :: rest => (.braced (cs.takeWhile notClosing) true, rest)
    | [] => (.braced (cs.takeWhile notClosing) false, [])
  | cs =>
    if (cs.takeWhile isNameChar).isEmpty then (.dollar, cs)
    else (.named (cs.takeWhile isNameChar), cs.dropWhile isNameChar)

theorem afterDollar_length (cs : List Char) : (afterDollar cs).2.length ≤ cs.length := by
  unfold afterDollar
  split
  · rename_i cs
    have h := (List.dropWhile_sublist notClosing (l := cs)).length_le
    split
    · rename_i rest hr
      rw [hr] at h
      simp only [List.length_cons] at h ⊢
      omega
    · simp
  · split
    · exact Nat.le_refl _
    · exact (List.dropWhile_sublist _).length_le

def pieces : List Char → List Piece
  | [] => []
  | c :: cs =>
    if c = '$' then (afterDollar cs).1 :: pieces (afterDollar cs).2 else .plain c :: pieces cs
termination_by cs => cs.length
decreasing_by
  · simpa using Nat.lt_succ_of_le (afterDollar_length cs)
  · simp

/-- What stands for a piece in the expanded text, or the name that is not set. -/
def Piece.expansion (env : Environment) (p : Piece) : Except String (List Char) :=
  match p.reference? with
  | none => .ok p.chars
  | some name =>
    match env name with
    | some v => .ok v.toList
    | none => .error name

/-- A text with the values of variables in the places of references; otherwise the first name that
is not set. -/
def expand (env : Environment) (text : String) : Except String String := do
  let parts ← (pieces text.toList).mapM (·.expansion env)
  return String.ofList parts.flatten

def references (text : String) : List String := (pieces text.toList).filterMap (·.reference?)

/-! ## The pieces of a text spell it -/

theorem chars_afterDollar (cs : List Char) :
    (afterDollar cs).1.chars ++ (afterDollar cs).2 = '$' :: cs := by
  unfold afterDollar
  split
  · rename_i cs
    have h := List.takeWhile_append_dropWhile (p := notClosing) (l := cs)
    split
    · rename_i c rest hr
      have hc : c = '\x7d' := by
        have := List.head_dropWhile_not (p := notClosing) (l := cs) (by simp [hr])
        simpa [hr, notClosing] using this
      rw [hr, hc] at h
      simp [Piece.chars, h]
    · rename_i hr
      rw [hr, List.append_nil] at h
      simp [Piece.chars, h]
  · split
    · simp [Piece.chars]
    · simp [Piece.chars, List.takeWhile_append_dropWhile]

theorem flatMap_chars_pieces (cs : List Char) : (pieces cs).flatMap Piece.chars = cs := by
  fun_induction pieces cs with
  | case1 => rfl
  | case2 cs ih => rw [List.flatMap_cons, ih, chars_afterDollar]
  | case3 c cs hc ih => rw [List.flatMap_cons, ih]; rfl

end CubeQuery.Settings
