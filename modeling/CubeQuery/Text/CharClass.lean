import CubeQuery.Text.Table.Alphanumeric
import CubeQuery.Text.Table.DecimalDigit
import CubeQuery.Text.Table.Word

/-!
# Character classes

Letters and numbers, word characters and decimal digits over all of Unicode: letters and numbers
follow version 17 of the standard, word characters and digits version 16.
-/

namespace CubeQuery.Text

/-- Letters and numbers of every script. -/
def isAlphanumeric (c : Char) : Bool :=
  if c.toNat < 128 then c.isAlphanum else alphanumericCodes.has c.toNat

/-- Letters, marks, decimal digits, connectors such as the underscore, and joiners. -/
def isWord (c : Char) : Bool :=
  if c.toNat < 128 then c.isAlphanum || c == '_' else wordCodes.has c.toNat

def isDecimalDigit (c : Char) : Bool :=
  if c.toNat < 128 then c.isDigit else decimalDigitCodes.has c.toNat

end CubeQuery.Text
