/-!
# Faults in expressions

Readers of expressions report where they stopped as the text still unread there. Once the whole text
is known this becomes a position, counted in characters from its start.
-/

namespace CubeQuery.Mdx

inductive ParseError where
  | unexpected (found : Char) (position : Nat)
  | unexpectedEnd
  | emptySegment (position : Nat)
  | unterminatedBracket (position : Nat)
deriving DecidableEq, Repr

def ParseError.message : ParseError → String
  | .unexpected found position => s!"unexpected '{found}' at position {position}"
  | .unexpectedEnd => "unexpected end of expression"
  | .emptySegment position => s!"empty identifier segment at position {position}"
  | .unterminatedBracket position => s!"unterminated '[' at position {position}"

/-- A parse error whose place is given by the unread text. -/
inductive Fault where
  /-- A character that cannot stand here, and the text after it. -/
  | unexpected (found : Char) (rest : List Char)
  | unexpectedEnd
  /-- The text from the start of the empty segment. -/
  | emptySegment (rest : List Char)
  /-- The text from the bracket. -/
  | unterminatedBracket (rest : List Char)
deriving DecidableEq, Repr

/-- Turns unread text into a position in a text of the given length. -/
def Fault.locate (length : Nat) : Fault → ParseError
  | .unexpected found rest => .unexpected found (length - (rest.length + 1))
  | .unexpectedEnd => .unexpectedEnd
  | .emptySegment rest => .emptySegment (length - rest.length)
  | .unterminatedBracket rest => .unterminatedBracket (length - rest.length)

/-- Takes a value off the front of a text. -/
abbrev Reader (α : Type) := List Char → Except Fault (α × List Char)

end CubeQuery.Mdx
