import CubeQuery.Json.Reader

/-!
# TOML strings

Basic and literal strings, on one line or several. A string of several lines keeps its line ends as
they are written, except the one right after its opening quotes.
-/

namespace CubeQuery.Toml

/-- Takes a value off the front of a text. -/
abbrev Reader (α : Type) := List Char → Option (α × List Char)

/-- Characters that may stand in comments and strings as they are. -/
def isPrintable (c : Char) : Bool := c == '\t' || (32 ≤ c.toNat && c.toNat != 127)

/-- The line end at the front of a text: a line feed, perhaps after a carriage return. -/
def lineEnd : Reader (List Char)
  | '\n' :: rest => some (['\n'], rest)
  | '\r' :: '\n' :: rest => some (['\r', '\n'], rest)
  | _ => none

def newline? (cs : List Char) : Option (List Char) := (lineEnd cs).map (·.2)

def isSpace (c : Char) : Bool := c == ' ' || c == '\t'

def skipSpaces (cs : List Char) : List Char := cs.dropWhile isSpace

def hexCode (digits : Nat) : Reader Char := fun cs => do
  let code ← (cs.take digits).foldlM (fun n c => (Json.hexValue c).map (n * 16 + ·)) 0
  if (cs.take digits).length = digits ∧ code.isValidChar then
    return (Char.ofNat code, cs.drop digits)
  else none

def escape : Reader Char
  | 'b' :: rest => some ('\x08', rest)
  | 't' :: rest => some ('\t', rest)
  | 'n' :: rest => some ('\n', rest)
  | 'f' :: rest => some ('\x0c', rest)
  | 'r' :: rest => some ('\r', rest)
  | 'e' :: rest => some ('\x1b', rest)
  | '"' :: rest => some ('"', rest)
  | '\\' :: rest => some ('\\', rest)
  | 'x' :: rest => hexCode 2 rest
  | 'u' :: rest => hexCode 4 rest
  | 'U' :: rest => hexCode 8 rest
  | _ => none

def basicBody : Nat → Reader (List Char)
  | 0, _ => none
  | _ + 1, [] => none
  | fuel + 1, c :: cs =>
    if c = '"' then some ([], cs)
    else if c = '\\' then do
      let (x, rest) ← escape cs
      let (xs, rest) ← basicBody fuel rest
      return (x :: xs, rest)
    else if isPrintable c then do
      let (xs, rest) ← basicBody fuel cs
      return (c :: xs, rest)
    else none

def literalBody : Reader (List Char)
  | [] => none
  | c :: cs =>
    if c = '\'' then some ([], cs)
    else if isPrintable c then (literalBody cs).map fun (xs, rest) => (c :: xs, rest)
    else none

/-- The quotes that end a string of several lines: three, after up to two that belong to it. -/
def closing (quote : Char) (cs : List Char) : Option (List Char × List Char) :=
  let n := min (cs.takeWhile (· == quote)).length 5
  if 3 ≤ n then some (List.replicate (n - 3) quote, cs.drop n) else none

def skipBlankLines : List Char → List Char
  | '\r' :: '\n' :: rest => skipBlankLines rest
  | c :: rest => if isSpace c || c == '\n' then skipBlankLines rest else c :: rest
  | [] => []

/-- The text after a backslash at a line end, without the blank lines that follow. -/
def continuation? (cs : List Char) : Option (List Char) :=
  (newline? (skipSpaces cs)).map skipBlankLines

def longBasicBody : Nat → Reader (List Char)
  | 0, _ => none
  | _ + 1, [] => none
  | fuel + 1, c :: cs =>
    match closing '"' (c :: cs), lineEnd (c :: cs) with
    | some (quotes, rest), _ => some (quotes, rest)
    | none, some (lf, rest) => (longBasicBody fuel rest).map fun (xs, rest) => (lf ++ xs, rest)
    | none, none =>
      if c = '\\' then
        match continuation? cs with
        | some rest => longBasicBody fuel rest
        | none => do
          let (x, rest) ← escape cs
          let (xs, rest) ← longBasicBody fuel rest
          return (x :: xs, rest)
      else if isPrintable c then (longBasicBody fuel cs).map fun (xs, rest) => (c :: xs, rest)
      else none

def longLiteralBody : Nat → Reader (List Char)
  | 0, _ => none
  | _ + 1, [] => none
  | fuel + 1, c :: cs =>
    match closing '\'' (c :: cs), lineEnd (c :: cs) with
    | some (quotes, rest), _ => some (quotes, rest)
    | none, some (lf, rest) => (longLiteralBody fuel rest).map fun (xs, rest) => (lf ++ xs, rest)
    | none, none =>
      if isPrintable c then (longLiteralBody fuel cs).map fun (xs, rest) => (c :: xs, rest)
      else none

def afterNewline (cs : List Char) : List Char := (newline? cs).getD cs

def shortString : Reader String
  | '"' :: rest => (basicBody (rest.length + 1) rest).map fun (s, r) => (String.ofList s, r)
  | '\'' :: rest => (literalBody rest).map fun (s, r) => (String.ofList s, r)
  | _ => none

def anyString : Reader String
  | '"' :: '"' :: '"' :: rest =>
    (longBasicBody (rest.length + 1) (afterNewline rest)).map fun (s, r) => (String.ofList s, r)
  | '\'' :: '\'' :: '\'' :: rest =>
    (longLiteralBody (rest.length + 1) (afterNewline rest)).map fun (s, r) => (String.ofList s, r)
  | cs => shortString cs

end CubeQuery.Toml
