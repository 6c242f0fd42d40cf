import Toolpath.Decimal.Binary

/-!
# The nearest double

A positive quotient is rounded to the nearest double, ties to the even mantissa, by exact
arithmetic: the power of two that gives it a mantissa of 53 bits, or the least one that doubles
have, and the quotient in units of that power, rounded.
-/

namespace Toolpath

def infinity : Float := 1.0 / 0.0

/-- The integer nearest to a quotient, the even one of two. -/
def roundQuotient (num den : Nat) : Nat :=
  let floor := num / den
  let twice := 2 * (num % den)
  if twice < den || (twice == den && floor % 2 == 0) then floor else floor + 1

/-- The rounded quotient is at most half a unit away. -/
theorem roundQuotient_near (num : Nat) {den : Nat} (h : 0 < den) :
    2 * (roundQuotient num den * den) ≤ 2 * num + den ∧
      2 * num ≤ 2 * (roundQuotient num den * den) + den := by
  have whole : num / den * den + num % den = num := Nat.div_add_mod' num den
  have below : num % den < den := Nat.mod_lt _ h
  simp only [roundQuotient, Bool.or_eq_true, Bool.and_eq_true, decide_eq_true_eq, beq_iff_eq]
  split
  · omega
  · rw [Nat.add_mul]
    omega

/-- A quotient halfway between two integers gives the even one. -/
theorem even_roundQuotient {num den : Nat} (h : 2 * (num % den) = den) :
    roundQuotient num den % 2 = 0 := by
  simp only [roundQuotient, Bool.or_eq_true, Bool.and_eq_true, decide_eq_true_eq, beq_iff_eq]
  split <;> omega

namespace Binary

def greatestExponent : Int := 971

/-- A quotient in units of `2 ^ exponent`. -/
def inUnits (num den : Nat) (exponent : Int) : Nat × Nat :=
  (num * Nat.pow 2 (-exponent).toNat, den * Nat.pow 2 exponent.toNat)

/-- The exponent of the doubles around a positive quotient. The logarithms of its parts give it, or
the one above it. -/
def exponentOf (num den : Nat) : Int :=
  let guess : Int := num.log2 - den.log2 - 52
  let (n, d) := inUnits num den guess
  max leastExponent (if n < leadingBit * d then guess - 1 else guess)

/-- The double of these parts. A mantissa of `2 ^ 53` carries over into the exponent. -/
def toFloat (b : Binary) : Float :=
  let sign : Nat := if b.negative then Nat.pow 2 63 else 0
  let scale : Nat := if b.mantissa < leadingBit then 0 else (b.exponent - leastExponent).toNat
  Float.ofBits (sign + scale * leadingBit + b.mantissa).toUInt64

/-- The double nearest to a positive quotient, which is infinite beyond the largest ones. -/
def nearest (num den : Nat) : Float :=
  let exponent := exponentOf num den
  if greatestExponent < exponent then infinity
  else
    let (n, d) := inUnits num den exponent
    toFloat ⟨false, roundQuotient n d, exponent⟩

end Binary

end Toolpath
