import Toolpath.Decimal.Binary

/-!
# The shortest decimal of a double

Every real number close enough to a double reads back as that double. Among the decimals in this
interval `shortest` takes the coarsest power of ten that has a multiple in it, and of its multiples
in the interval the one nearest to the double. Interval, multiples and distances are compared as
integers, so nothing is rounded on the way.
-/

namespace Toolpath

/-- The positive number `digits * 10 ^ exponent`. -/
structure Decimal where
  digits : Nat
  exponent : Int
deriving DecidableEq, Repr

namespace Binary

/-- The reals that round to a double, and the double itself, in quarter units of its last place:
`low`, `value` and `high` count quarters of `2 ^ exponent`. The ends belong to the interval if
`closed` holds. -/
structure Rounding where
  low : Nat
  value : Nat
  high : Nat
  exponent : Int
  closed : Bool

/-- The neighbours of a double lie one unit away, and the lower one of a power of two half a unit.
A tie rounds to the even mantissa. -/
def rounding (b : Binary) : Rounding where
  low := if b.mantissa = leadingBit ∧ leastExponent < b.exponent
    then 4 * b.mantissa - 1 else 4 * b.mantissa - 2
  value := 4 * b.mantissa
  high := 4 * b.mantissa + 2
  exponent := b.exponent - 2
  closed := b.mantissa % 2 == 0

end Binary

namespace Decimal

/-- `base ^ e` where it is an integer, and one otherwise. -/
def upscale (base : Nat) (e : Int) : Nat := Nat.pow base e.toNat

/-- The multiple of `10 ^ exponent` nearest to the double among those that read back as it, ties to
the even multiple. Both neighbours of the double on this grid are tried. -/
def onGrid? (r : Binary.Rounding) (exponent : Int) : Option Decimal :=
  let scale := upscale 2 r.exponent * upscale 10 (-exponent)
  let unit := upscale 2 (-r.exponent) * upscale 10 exponent
  let value := r.value * scale
  let floor := value / unit
  let readsBack (n : Nat) : Bool :=
    if r.closed then r.low * scale ≤ n * unit && n * unit ≤ r.high * scale
    else r.low * scale < n * unit && n * unit < r.high * scale
  let below := value - floor * unit
  let above := (floor + 1) * unit - value
  let floorFirst := below < above || (below == above && floor % 2 == 0)
  match readsBack floor, readsBack (floor + 1) with
  | true, true => some ⟨if floorFirst then floor else floor + 1, exponent⟩
  | true, false => some ⟨floor, exponent⟩
  | false, true => some ⟨floor + 1, exponent⟩
  | false, false => none

/-- A double is itself a decimal. -/
def exact (b : Binary) : Decimal :=
  match b.exponent with
  | .ofNat e => ⟨b.mantissa * Nat.pow 2 e, 0⟩
  | .negSucc e => ⟨b.mantissa * Nat.pow 5 (e + 1), .negSucc e⟩

/-- The decimal on the first of `count` grids that has one, from `10 ^ exponent` to ever finer
ones, and the double itself after them. -/
def coarsest (b : Binary) (exponent : Int) : Nat → Decimal
  | 0 => exact b
  | count + 1 => (onGrid? b.rounding exponent).getD (coarsest b (exponent - 1) count)

/-- The exponent of a power of ten above all reals that read back as the double. The decimal
logarithm of two lies between the two fractions. -/
def exponentAbove (r : Binary.Rounding) : Int :=
  let bits := r.high.log2 + 1 + r.exponent
  (if 0 ≤ bits then bits * 30103 / 100000 else bits * 30102 / 100000) + 1

/-- The shortest decimal that reads back as the double, and the nearest to it of those. -/
def shortest (b : Binary) : Decimal :=
  let start := exponentAbove b.rounding
  coarsest b start (start - (exact b).exponent).toNat

end Decimal

end Toolpath
