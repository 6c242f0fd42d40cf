/-!
# Doubles as exact numbers

A finite double other than zero is a sign, a positive integer and a power of two. `Binary.ofFloat`
reads them off its bits; `truncate` is the integer part of such a number.
-/

namespace Toolpath

/-- The magnitude `mantissa * 2 ^ exponent` of a finite double, and its sign. -/
structure Binary where
  negative : Bool
  mantissa : Nat
  exponent : Int
deriving DecidableEq, Repr

namespace Binary

/-- The exponent of the smallest doubles, whose mantissas may be of any size below `2 ^ 53`. -/
def leastExponent : Int := -1074

/-- The least mantissa of 53 bits. -/
def leadingBit : Nat := Nat.pow 2 52

/-- The parts of `x`, if it is neither infinite nor NaN. Eleven bits of exponent stand over 52 bits
of mantissa, and a leading one is left out wherever the exponent bits are not zero. -/
def ofFloat? (x : Float) : Option Binary :=
  let bits : Nat := x.toBits.toNat
  let negative := bits / Nat.pow 2 63 == 1
  let scale : Nat := bits / leadingBit % Nat.pow 2 11
  let fraction : Nat := bits % leadingBit
  if scale = 0x7FF then none
  else if scale = 0 then some ⟨negative, fraction, leastExponent⟩
  else some ⟨negative, leadingBit + fraction, (scale : Int) - 1 + leastExponent⟩

def truncate (b : Binary) : Int :=
  let size : Nat := match b.exponent with
    | .ofNat e => b.mantissa * Nat.pow 2 e
    | .negSucc e => b.mantissa / Nat.pow 2 (e + 1)
  if b.negative then -size else size

end Binary

end Toolpath
