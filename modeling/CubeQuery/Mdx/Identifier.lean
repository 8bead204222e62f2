import CubeQuery.Mdx.Fault
import CubeQuery.Text.Blank
import CubeQuery.Text.CharClass

/-!
# Identifiers

Compound identifiers such as `[Time].[Year].&1997`: segments separated by dots, each a bare name, a
name in brackets or a member key. A name in brackets may hold anything; its closing brackets are
doubled.
-/

namespace CubeQuery.Mdx

open Text

inductive Quoting where
  | unquoted
  | quoted
  | key
deriving DecidableEq, Repr

structure Segment where
  quoting : Quoting
  name : String
deriving DecidableEq, Repr

structure Identifier where
  segments : List Segment
deriving DecidableEq, Repr

/-! ## Names in brackets -/

def doubleClosing : List Char → List Char
  | [] => []
  | c :: cs => if c = ']' then ']' :: ']' :: doubleClosing cs else c :: doubleClosing cs

def bracketed (name : List Char) : List Char := '[' :: (doubleClosing name ++ [']'])

def quoteName (name : String) : String := String.ofList (bracketed name.toList)

@[simp] theorem toList_quoteName (name : String) :
    (quoteName name).toList = bracketed name.toList := by
  simp [quoteName]

/-- The name up to its closing bracket and the text after it; `none` if the bracket is missing. -/
def closeBracket : List Char → Option (List Char × List Char)
  | [] => none
  | ']' :: ']' :: rest => (closeBracket rest).map fun (name, rest) => (']' :: name, rest)
  | ']' :: rest => some ([], rest)
  | c :: rest => (closeBracket rest).map fun (name, rest) => (c :: name, rest)

/-- Closing a name that was put in brackets gives the name back. -/
theorem closeBracket_doubleClosing (name rest : List Char) (h : rest.head? ≠ some ']') :
    closeBracket (doubleClosing name ++ ']' :: rest) = some (name, rest) := by
  induction name with
  | nil =>
    cases rest with
    | nil => rfl
    | cons c cs =>
      have hc : c ≠ ']' := by simpa using h
      simp [doubleClosing, closeBracket, hc]
  | cons c cs ih =>
    by_cases hc : c = ']'
    · subst hc
      simp [doubleClosing, closeBracket, ih]
    · simp only [doubleClosing, hc, if_false, List.cons_append]
      rw [closeBracket]
      · simp [ih]
      · intro _ h; exact absurd h hc
      · intro h; exact absurd h hc

/-! ## Segments as text -/

/-- Characters that end a bare name. -/
def isDelimiter (c : Char) : Bool :=
  c == '.' || c == ',' || c == '\x7b' || c == '\x7d' || c == '(' || c == ')' || c == ':' ||
    c == '[' || c == ']' || c == '&' || c == '*'

/-- Keys of letters, numbers and underscores alone need no brackets. -/
def isPlainKey (name : List Char) : Bool :=
  !name.isEmpty && name.all fun c => isAlphanumeric c || c == '_'

namespace Segment

def isKey (s : Segment) : Bool := s.quoting == .key

def chars (s : Segment) : List Char :=
  match s.quoting with
  | .unquoted => s.name.toList
  | .quoted => bracketed s.name.toList
  | .key =>
    '&' :: (if isPlainKey s.name.toList then s.name.toList else bracketed s.name.toList)

end Segment

def segmentChars : List Segment → List Char
  | [] => []
  | [s] => s.chars
  | s :: rest => s.chars ++ '.' :: segmentChars rest

namespace Identifier

def chars (i : Identifier) : List Char := segmentChars i.segments

def text (i : Identifier) : String := String.ofList i.chars

def names (i : Identifier) : List String := i.segments.map (·.name)

def hasKey (i : Identifier) : Bool := i.segments.any (·.isKey)

end Identifier

/-! ## Reading identifiers -/

/-- The longest run of characters other than delimiters, trimmed, and the text after it. -/
def bareName (cs : List Char) : List Char × List Char :=
  (trim (cs.takeWhile fun c => !isDelimiter c), cs.dropWhile fun c => !isDelimiter c)

/-- A bare name that must not be empty, written from `start` on. -/
def bareSegment (quoting : Quoting) (start : List Char) : Reader Segment := fun cs =>
  match bareName cs with
  | ([], _) => .error (.emptySegment start)
  | (name, rest) => .ok (⟨quoting, String.ofList name⟩, rest)

/-- One segment, after white space. -/
def segment : Reader Segment := fun cs =>
  match skipBlanks cs with
  | [] => .error .unexpectedEnd
  | '[' :: rest =>
    match closeBracket rest with
    | some (name, after) => .ok (⟨.quoted, String.ofList name⟩, after)
    | none => .error (.unterminatedBracket ('[' :: rest))
  | '&' :: '[' :: rest =>
    match closeBracket rest with
    | some ([], _) => .error (.emptySegment ('&' :: '[' :: rest))
    | some (name, after) => .ok (⟨.key, String.ofList name⟩, after)
    | none => .error (.unterminatedBracket ('[' :: rest))
  | '&' :: rest => bareSegment .key ('&' :: rest) rest
  | start => bareSegment .unquoted start start

/-- Segments separated by dots, at most `fuel` of them. -/
def segments : Nat → Reader (List Segment)
  | 0, _ => .error .unexpectedEnd
  | fuel + 1, cs => do
    let (s, rest) ← segment cs
    match skipBlanks rest with
    | '.' :: rest =>
      let (more, rest) ← segments fuel rest
      return (s :: more, rest)
    | rest => return ([s], rest)

/-- An identifier and the text after the white space behind it. -/
def identifier : Reader Identifier := fun cs => do
  let (s, rest) ← segments cs.length cs
  return (⟨s⟩, rest)

/-- Reads a whole text with a reader; anything left over but white space is unexpected. -/
def readWhole {α : Type} (reader : Reader α) (text : String) : Except ParseError α :=
  let cs := text.toList
  match reader cs with
  | .error fault => .error (fault.locate cs.length)
  | .ok (value, rest) =>
    match skipBlanks rest with
    | [] => .ok value
    | c :: rest => .error (Fault.locate cs.length (.unexpected c rest))

def Identifier.parse (text : String) : Except ParseError Identifier := readWhole identifier text

end CubeQuery.Mdx
