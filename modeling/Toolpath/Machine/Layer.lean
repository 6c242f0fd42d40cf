import Toolpath.Decimal.Binary
import Toolpath.Decimal.Numeral
import Toolpath.Record
import Toolpath.Text.Blank

/-!
# Layer numbers

The number of a layer tag is read leniently: a number loses its fraction, and a text gives the
integer that it starts with, whatever follows. Numbers are 64-bit integers; a number tag beyond
them counts as the nearest of them, while a text beyond them says nothing.
-/

namespace Toolpath.Layer

def least : Int := -Nat.pow 2 63

def greatest : Int := Nat.pow 2 63 - 1

def clamp (n : Int) : Int := max least (min greatest n)

/-- The integer that a text starts with: an optional sign and at least one digit. -/
def integerAtStart? (s : List Char) : Option Int :=
  let (negative, body) := Numeral.splitSign s
  let digits := body.takeWhile Char.isDigit
  let size : Int := Digits.decimal digits
  if digits.isEmpty then none else some (if negative then -size else size)

/-- The number of a layer tag. -/
def index? : TagValue → Option Int
  | .number x => (Binary.ofFloat? x).map fun b => clamp b.truncate
  | .text s =>
    (integerAtStart? (Text.trimStart s.toList)).filter fun n => least ≤ n && n ≤ greatest

end Toolpath.Layer
