import CubeQuery.Decimal.Layout
import CubeQuery.Mdx.Identifier
import CubeQuery.Text.Capital

/-!
# Tokens

The pieces that rendered queries are made of. Every piece of a query is a token, so that quoting and
spelling are decided in one place.
-/

namespace CubeQuery.Mdx

inductive Token where
  | withWord
  | memberWord
  | asWord
  | select
  | on
  | fromWord
  | whereWord
  | nonEmpty
  | and
  | members
  | currentMember
  | properties
  | caption
  | name
  | uniqueName
  | basc
  | bdesc
  | null
  | comma
  | dot
  | star
  | lparen
  | rparen
  | lbrace
  | rbrace
  | eq
  | ne
  | lt
  | gt
  | le
  | ge
  | space
  | newline
  /-- The name of the axis at a position. -/
  | axis (position : Nat)
  /-- A single name, put in brackets. -/
  | bracketed (s : String)
  /-- A unique name, taken as it is. -/
  | uniqueIdent (s : String)
  /-- The name of a function, written in capitals. -/
  | functionName (s : String)
  /-- A number, kept as it was written. -/
  | number (s : String)
  | integer (n : Nat)
  | literal (s : String)
  /-- The canonical text of a fragment. -/
  | fragment (s : String)
deriving DecidableEq, Repr

def axisName : Nat → String
  | 0 => "COLUMNS"
  | 1 => "ROWS"
  | 2 => "PAGES"
  | 3 => "CHAPTERS"
  | 4 => "SECTIONS"
  | n => "AXIS(" ++ Decimal.natText n ++ ")"

/-- A string literal, with inner quotes doubled. -/
def stringLiteral (s : String) : String :=
  String.ofList ('"' :: (s.toList.flatMap fun c => if c = '"' then ['"', '"'] else [c]) ++ ['"'])

def Token.text : Token → String
  | .withWord => "WITH"
  | .memberWord => "MEMBER"
  | .asWord => "AS"
  | .select => "SELECT"
  | .on => "ON"
  | .fromWord => "FROM"
  | .whereWord => "WHERE"
  | .nonEmpty => "NON EMPTY"
  | .and => "AND"
  | .members => "Members"
  | .currentMember => "CurrentMember"
  | .properties => "Properties"
  | .caption => "Caption"
  | .name => "Name"
  | .uniqueName => "UniqueName"
  | .basc => "BASC"
  | .bdesc => "BDESC"
  | .null => "NULL"
  | .comma => ","
  | .dot => "."
  | .star => "*"
  | .lparen => "("
  | .rparen => ")"
  | .lbrace => "\x7b"
  | .rbrace => "\x7d"
  | .eq => "="
  | .ne => "<>"
  | .lt => "<"
  | .gt => ">"
  | .le => "<="
  | .ge => ">="
  | .space => " "
  | .newline => "\n"
  | .axis position => axisName position
  | .bracketed s => quoteName s
  | .uniqueIdent s => s
  | .functionName s => String.ofList (Text.capitals s.toList)
  | .number s => s
  | .integer n => Decimal.natText n
  | .literal s => stringLiteral s
  | .fragment s => s

def serialize (tokens : List Token) : String := String.join (tokens.map (·.text))

def separator : List Token := [.comma, .space]

def callTokens (function : String) (arguments : List (List Token)) : List Token :=
  .functionName function :: .lparen :: (separator.intercalate arguments ++ [.rparen])

end CubeQuery.Mdx
