/-!
# Styled text

Text in which headings and literal words stand out. Printed in colour they are set in bold; without
colour the styles leave no trace, and widths never count them.
-/

namespace CubeQuery.CommandLine

inductive Emphasis where
  | plain
  /-- A word that is typed as it stands. -/
  | literal
  | heading
deriving DecidableEq, Repr

structure Span where
  emphasis : Emphasis
  text : String
deriving DecidableEq, Repr

abbrev Styled := List Span

namespace Styled

def plain (text : String) : Styled := [⟨.plain, text⟩]

def literal (text : String) : Styled := [⟨.literal, text⟩]

def heading (text : String) : Styled := [⟨.heading, text⟩]

def width : Styled → Nat
  | [] => 0
  | s :: rest => s.text.length + width rest

def blanks (n : Nat) : String := String.ofList (List.replicate n ' ')

def padded (width : Nat) (s : Styled) : Styled := s ++ plain (blanks (width - s.width))

def widest (texts : List Styled) : Nat := (texts.map (·.width)).foldl max 0

def joined (separator : String) : List Styled → Styled
  | [] => []
  | [s] => s
  | s :: rest => s ++ plain separator ++ joined separator rest

/-- The codes that open a style on a terminal; one code closes them all. -/
def opening : Emphasis → String
  | .plain => ""
  | .literal => "\x1b[1m"
  | .heading => "\x1b[1m\x1b[4m"

def closing : String := "\x1b[0m"

def spanText (coloured : Bool) (s : Span) : String :=
  if coloured && s.emphasis != .plain then opening s.emphasis ++ s.text ++ closing else s.text

def render (coloured : Bool) (s : Styled) : String := String.join (s.map (spanText coloured))

end Styled

end CubeQuery.CommandLine
