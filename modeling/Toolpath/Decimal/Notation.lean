import Toolpath.Decimal.Shortest

/-!
# Writing a double

A finite double is written with the digits of its shortest decimal: positionally with at least one
decimal place where the leading digit stands for `10 ^ -5` up to `10 ^ 15`, and otherwise with one
digit before the point and a signed exponent. A whole number keeps its `.0` in positional notation
only.
-/

namespace Toolpath

namespace Decimal

/-- The powers of ten of a leading digit that are written positionally. -/
structure Positional where
  least : Int
  greatest : Int

def positional : Positional := ⟨-5, 15⟩

/-- The power of ten that the leading digit stands for. -/
def leadingExponent (d : Decimal) : Int :=
  (Nat.toDigits 10 d.digits).length + d.exponent - 1

/-- `digits` with the point behind the first `places` of them, where zeros stand for those that the
list lacks on either side. -/
def withPoint (digits : List Char) (places : Int) : List Char :=
  if places ≤ 0 then '0' :: '.' :: List.replicate (-places).toNat '0' ++ digits
  else
    let whole := digits.take places.toNat
    let fraction := digits.drop places.toNat
    whole ++ List.replicate (places.toNat - whole.length) '0' ++
      '.' :: (if fraction.isEmpty then ['0'] else fraction)

/-- One digit, the others behind a point, and the exponent with its sign. -/
def scientific (digits : List Char) (exponent : Int) : List Char :=
  let fraction := digits.drop 1
  digits.take 1 ++ (if fraction.isEmpty then [] else '.' :: fraction) ++
    'e' :: (if exponent < 0 then '-' else '+') :: Nat.toDigits 10 exponent.natAbs

def toText (d : Decimal) : List Char :=
  let digits := Nat.toDigits 10 d.digits
  let leading := d.leadingExponent
  if positional.least ≤ leading ∧ leading ≤ positional.greatest then
    withPoint digits (leading + 1)
  else scientific digits leading

end Decimal

/-- The text of a finite double; infinities and NaN have none. -/
def floatText? (x : Float) : Option (List Char) :=
  (Binary.ofFloat? x).map fun b =>
    let magnitude := if b.mantissa = 0 then "0.0".toList else (Decimal.shortest b).toText
    if b.negative then '-' :: magnitude else magnitude

end Toolpath
