import Toolpath.Decimal.Numeral
import Toolpath.Proofs.DoubleBits

/-!
# Rounding a numeral

A numeral becomes the double nearest to its number, ties to the even mantissa, or infinity from
half a unit above the greatest double on. In units of the power of two that a quotient is rounded
in, a double is an integer or less than any mantissa of 53 bits. So no double is closer than the
nearest integer, and with ties to even mantissas there is one double to round to.
-/

namespace Toolpath

namespace Binary

/-- The size of a number in binary notation. -/
def magnitude (b : Binary) : ℚ := b.mantissa * 2 ^ b.exponent

section Nearest

/-- No double is closer to a number of size `q`, and the mantissa is even where another one is as
close. -/
structure IsNearest (q : ℚ) (b : Binary) : Prop where
  near : ∀ x b', ofFloat? x = some b' → |q - b.magnitude| ≤ |q - b'.magnitude|
  even : ∀ x b', ofFloat? x = some b' → b'.magnitude ≠ b.magnitude →
    |q - b'.magnitude| = |q - b.magnitude| → 2 ∣ b.mantissa

/-- Half a unit above the greatest double. -/
def overflow : ℚ := (2 ^ 53 - 1 / 2) * 2 ^ greatestExponent

/-- The double nearest to a number of size `q`, or infinity where that would be `2 ^ 1024`. -/
def RoundsTo (negative : Bool) (q : ℚ) (x : Float) : Prop :=
  if q < overflow then ∃ b, ofFloat? x = some b ∧ b.negative = negative ∧ b.IsNearest q
  else x = if negative then -infinity else infinity

/-- A rational within half of a unit of an integer. -/
theorem near_integer {r : ℚ} {m : ℤ} (h : |r - m| ≤ 1 / 2) (k : ℤ) :
    |r - m| ≤ |r - k| ∧ (k ≠ m → |r - k| = |r - m| → |r - m| = 1 / 2) := by
  by_cases hk : k = m
  · rw [hk]
    exact ⟨le_rfl, fun hne => absurd rfl hne⟩
  · have hapart : (1 : ℚ) ≤ |(m : ℚ) - k| := by
      have hint : 1 ≤ |m - k| := Int.one_le_abs (sub_ne_zero.2 (Ne.symm hk))
      exact_mod_cast hint
    have htriangle : |(m : ℚ) - k| ≤ |r - m| + |r - k| := by
      calc |(m : ℚ) - k| = |(r - k) - (r - m)| := by congr 1; ring
        _ ≤ |r - k| + |r - m| := abs_sub _ _
        _ = |r - m| + |r - k| := add_comm _ _
    refine ⟨by linarith, fun _ heq => ?_⟩
    rw [heq] at htriangle
    linarith

theorem exists_magnitude_eq {b : Binary} {e : ℤ} (h : e ≤ b.exponent) :
    ∃ k : ℤ, b.magnitude = k * 2 ^ e := by
  obtain ⟨d, hd⟩ := Int.eq_ofNat_of_zero_le (Int.sub_nonneg.2 h)
  refine ⟨b.mantissa * 2 ^ d, ?_⟩
  have hexponent : b.exponent = d + e := by omega
  rw [magnitude, hexponent, zpow_add₀ (by norm_num)]
  push_cast
  rw [zpow_natCast, mul_assoc]

theorem IsCanonical.magnitude_lt {b : Binary} {e : ℤ} (h : b.IsCanonical) (he : b.exponent < e) :
    b.magnitude < 2 ^ 52 * 2 ^ e := by
  have hmantissa : (b.mantissa : ℚ) < 2 ^ 53 := by
    have hlt := h.mantissa_lt
    have hbit : 2 * leadingBit = 2 ^ 53 := rfl
    rw [hbit] at hlt
    exact_mod_cast hlt
  have hpow : (2 : ℚ) ^ b.exponent ≤ 2 ^ (e - 1) := zpow_le_zpow_right₀ (by norm_num) (by omega)
  calc b.magnitude = b.mantissa * 2 ^ b.exponent := rfl
    _ < 2 ^ 53 * 2 ^ b.exponent := by gcongr
    _ ≤ 2 ^ 53 * 2 ^ (e - 1) := by gcongr
    _ = 2 ^ 52 * 2 ^ e := by
      rw [zpow_sub_one₀ (by norm_num)]
      ring

theorem closer_of_lt {p r s t : ℚ} (h : |r - p| ≤ |r - s|) (hr : s ≤ r) (ht : t < s) :
    |r - p| < |r - t| := by
  calc |r - p| ≤ |r - s| := h
    _ = r - s := abs_of_nonneg (sub_nonneg.2 hr)
    _ < r - t := sub_lt_sub_left ht r
    _ ≤ |r - t| := le_abs_self _

/-- In units of `2 ^ e`, doubles are integers or lie below the integers that mantissas may be. So
none of them is closer than the nearest integer. -/
theorem near_of_double {q : ℚ} {e : ℤ} {m : ℕ} (hnear : |q / 2 ^ e - m| ≤ 1 / 2)
    (hlow : e = leastExponent ∨ 2 ^ 52 * 2 ^ e ≤ q) {b : Binary} (h : b.IsCanonical) :
    |q / 2 ^ e - m| ≤ |q / 2 ^ e - b.magnitude / 2 ^ e| ∧
      (b.magnitude / 2 ^ e ≠ m → |q / 2 ^ e - b.magnitude / 2 ^ e| = |q / 2 ^ e - m| →
        |q / 2 ^ e - m| = 1 / 2) := by
  have hunit : (0 : ℚ) < 2 ^ e := by positivity
  have hnear' : |q / 2 ^ e - (m : ℤ)| ≤ 1 / 2 := by rwa [Int.cast_natCast]
  by_cases hexponent : e ≤ b.exponent
  · obtain ⟨k, hk⟩ := exists_magnitude_eq hexponent
    have hinteger : b.magnitude / 2 ^ e = k := by rw [hk, mul_div_cancel_right₀ _ hunit.ne']
    have hcast : (k : ℚ) ≠ m → k ≠ (m : ℤ) := fun hne heq => hne (by rw [heq, Int.cast_natCast])
    rw [hinteger]
    have hk := near_integer hnear' k
    rw [Int.cast_natCast] at hk
    exact ⟨hk.1, fun hne => hk.2 (hcast hne)⟩
  · rw [not_le] at hexponent
    have hleast : e ≠ leastExponent := (h.leastExponent_le.trans_lt hexponent).ne'
    have hq : 2 ^ 52 ≤ q / 2 ^ e := by
      rw [le_div_iff₀ hunit]
      exact hlow.resolve_left hleast
    have hb : b.magnitude / 2 ^ e < 2 ^ 52 := by
      rw [div_lt_iff₀ hunit]
      exact h.magnitude_lt hexponent
    have hbinade := (near_integer hnear' (2 ^ 52)).1
    rw [Int.cast_natCast] at hbinade
    push_cast at hbinade
    have hcloser := closer_of_lt hbinade hq hb
    exact ⟨hcloser.le, fun _ heq => absurd heq hcloser.ne'⟩

theorem isNearest_of_near {q : ℚ} {e : ℤ} {m : ℕ} {b : Binary} (hb : b.magnitude = m * 2 ^ e)
    (heven : 2 ∣ m → 2 ∣ b.mantissa) (hnear : |q / 2 ^ e - m| ≤ 1 / 2)
    (htie : |q / 2 ^ e - m| = 1 / 2 → 2 ∣ m)
    (hlow : e = leastExponent ∨ 2 ^ 52 * 2 ^ e ≤ q) : b.IsNearest q := by
  have hunit : (0 : ℚ) < 2 ^ e := by positivity
  have hscale : ∀ p : ℚ, |q - p| = |q / 2 ^ e - p / 2 ^ e| * 2 ^ e := by
    intro p
    rw [← sub_div, abs_div, abs_of_pos hunit, div_mul_cancel₀ _ hunit.ne']
  have hunits : b.magnitude / 2 ^ e = m := by rw [hb, mul_div_cancel_right₀ _ hunit.ne']
  constructor
  · intro x b' hx
    have hle := (near_of_double hnear hlow (isCanonical_of_ofFloat? hx)).1
    rw [hscale b.magnitude, hscale b'.magnitude, hunits]
    exact mul_le_mul_of_nonneg_right hle hunit.le
  · intro x b' hx hne hclose
    have hhalf := (near_of_double hnear hlow (isCanonical_of_ofFloat? hx)).2
    rw [hscale b'.magnitude, hscale b.magnitude, hunits, mul_left_inj' hunit.ne'] at hclose
    have hne' : b'.magnitude / 2 ^ e ≠ m := by
      rwa [ne_eq, ← hunits, div_left_inj' hunit.ne']
    exact heven (htie (hhalf hne' hclose))

/-- Numbers below half of the smallest double round to zero. -/
theorem isNearest_zero {q : ℚ} (hq : 0 ≤ q) (hsmall : q < 2 ^ leastExponent / 2)
    (negative : Bool) : IsNearest q ⟨negative, 0, leastExponent⟩ := by
  have hunit : (0 : ℚ) < 2 ^ leastExponent := by positivity
  have hratio : q / 2 ^ leastExponent < 1 / 2 := by
    rw [div_lt_iff₀ hunit]
    linarith
  have hsize : |q / 2 ^ leastExponent - (0 : ℕ)| = q / 2 ^ leastExponent := by
    rw [Nat.cast_zero, sub_zero]
    exact abs_of_nonneg (by positivity)
  have hzero : magnitude ⟨negative, 0, leastExponent⟩ = (0 : ℕ) * 2 ^ leastExponent := by
    rw [magnitude]
  refine isNearest_of_near hzero id ?_ (fun _ => dvd_zero 2) (.inl rfl)
  rw [hsize]
  exact hratio.le

end Nearest

section Quotient

theorem roundQuotient_near_rat (num : ℕ) {den : ℕ} (hden : 0 < den) :
    |(num / den : ℚ) - roundQuotient num den| ≤ 1 / 2 := by
  have hden' : (0 : ℚ) < den := by exact_mod_cast hden
  obtain ⟨hhigh, hlow⟩ := roundQuotient_near num hden
  have hhigh' : (2 * (roundQuotient num den * den) : ℚ) ≤ 2 * num + den := by exact_mod_cast hhigh
  have hlow' : (2 * num : ℚ) ≤ 2 * (roundQuotient num den * den) + den := by exact_mod_cast hlow
  have hsub : (num / den : ℚ) - roundQuotient num den =
      (num - roundQuotient num den * den) / den := by
    field_simp
  rw [hsub, abs_div, abs_of_pos hden', div_le_iff₀ hden', abs_le]
  constructor <;> linarith

theorem even_roundQuotient_of_tie (num : ℕ) {den : ℕ} (hden : 0 < den)
    (h : |(num / den : ℚ) - roundQuotient num den| = 1 / 2) : 2 ∣ roundQuotient num den := by
  have hden' : (0 : ℚ) < den := by exact_mod_cast hden
  have hhalf : ∃ k : ℕ, 2 * num = den + 2 * den * k := by
    rw [abs_eq (by norm_num)] at h
    obtain habove | hbelow := h
    · refine ⟨roundQuotient num den, ?_⟩
      field_simp at habove
      have hsum : (2 * num : ℚ) = den + 2 * den * roundQuotient num den := by linarith
      exact_mod_cast hsum
    · field_simp at hbelow
      have hsum : (2 * num + den : ℚ) = 2 * den * roundQuotient num den := by linarith
      have hsum : 2 * num + den = 2 * den * roundQuotient num den := by exact_mod_cast hsum
      cases hround : roundQuotient num den with
      | zero =>
        rw [hround] at hsum
        omega
      | succ k =>
        rw [hround, Nat.mul_add] at hsum
        exact ⟨k, by omega⟩
  obtain ⟨k, hk⟩ := hhalf
  apply Nat.dvd_of_mod_eq_zero
  apply even_roundQuotient
  rw [← Nat.mul_mod_mul_left, hk, Nat.add_mul_mod_self_left, Nat.mod_eq_of_lt (by omega)]

theorem inUnits_pos (num : ℕ) {den : ℕ} (hden : 0 < den) (e : ℤ) : 0 < (inUnits num den e).2 :=
  Nat.mul_pos hden (Nat.two_pow_pos _)

theorem inUnits_eq (num den : ℕ) (e : ℤ) :
    ((inUnits num den e).1 / (inUnits num den e).2 : ℚ) = num / den / 2 ^ e := by
  have hpow : (2 : ℚ) ^ (-e).toNat / 2 ^ e.toNat = (2 ^ e)⁻¹ := by
    rw [← zpow_natCast, ← zpow_natCast, ← zpow_sub₀ (by norm_num), ← zpow_neg]
    congr 1
    omega
  have hcast : ∀ k : ℕ, ((Nat.pow 2 k : ℕ) : ℚ) = 2 ^ k := fun k => by
    rw [Nat.pow_eq, Nat.cast_pow, Nat.cast_ofNat]
  rw [inUnits, Nat.cast_mul, Nat.cast_mul, hcast, hcast, mul_div_mul_comm, hpow]
  exact (div_eq_mul_inv _ _).symm

theorem inUnits_lt_iff (num : ℕ) {den : ℕ} (hden : 0 < den) (e : ℤ) :
    (inUnits num den e).1 < leadingBit * (inUnits num den e).2 ↔
      (num / den : ℚ) < 2 ^ 52 * 2 ^ e := by
  have hbit : leadingBit = 2 ^ 52 := rfl
  have hunit : (0 : ℚ) < 2 ^ e := by positivity
  have hpos : (0 : ℚ) < (inUnits num den e).2 := by exact_mod_cast inUnits_pos num hden e
  rw [← div_lt_iff₀ hunit, ← inUnits_eq, div_lt_iff₀ hpos, hbit]
  norm_cast

/-- The logarithms of both parts leave a factor of four between the bounds. -/
theorem quotient_bounds {num den : ℕ} (hnum : 0 < num) (hden : 0 < den) :
    let guess : ℤ := num.log2 - den.log2 - 52
    (2 ^ 51 * 2 ^ guess : ℚ) ≤ num / den ∧ (num / den : ℚ) < 2 ^ 53 * 2 ^ guess := by
  intro guess
  have hden' : (0 : ℚ) < den := by exact_mod_cast hden
  have hnumLow : (2 ^ num.log2 : ℚ) ≤ num := by exact_mod_cast Nat.log2_self_le hnum.ne'
  have hnumHigh : (num : ℚ) < 2 ^ (num.log2 + 1) := by exact_mod_cast Nat.lt_log2_self
  have hdenLow : (2 ^ den.log2 : ℚ) ≤ den := by exact_mod_cast Nat.log2_self_le hden.ne'
  have hdenHigh : (den : ℚ) < 2 ^ (den.log2 + 1) := by exact_mod_cast Nat.lt_log2_self
  have hpow : (2 : ℚ) ^ guess * 2 ^ 52 * 2 ^ den.log2 = 2 ^ num.log2 := by
    rw [← zpow_natCast, ← zpow_natCast, ← zpow_natCast, ← zpow_add₀ (by norm_num),
      ← zpow_add₀ (by norm_num)]
    congr 1
    omega
  constructor
  · rw [le_div_iff₀ hden']
    calc (2 ^ 51 * 2 ^ guess * den : ℚ) ≤ 2 ^ 51 * 2 ^ guess * 2 ^ (den.log2 + 1) := by gcongr
      _ = 2 ^ guess * 2 ^ 52 * 2 ^ den.log2 := by ring
      _ = 2 ^ num.log2 := hpow
      _ ≤ num := hnumLow
  · rw [div_lt_iff₀ hden']
    calc (num : ℚ) < 2 ^ (num.log2 + 1) := hnumHigh
      _ = 2 ^ num.log2 * 2 := pow_succ _ _
      _ = 2 ^ guess * 2 ^ 52 * 2 ^ den.log2 * 2 := by rw [hpow]
      _ = 2 ^ 53 * 2 ^ guess * 2 ^ den.log2 := by ring
      _ ≤ 2 ^ 53 * 2 ^ guess * den := by gcongr

/-- The exponent of a quotient gives it a mantissa of 53 bits, or is the least one. -/
theorem exponentOf_bounds {num den : ℕ} (hnum : 0 < num) (hden : 0 < den) :
    leastExponent ≤ exponentOf num den ∧
      (num / den : ℚ) < 2 ^ 53 * 2 ^ exponentOf num den ∧
      (exponentOf num den = leastExponent ∨ 2 ^ 52 * 2 ^ exponentOf num den ≤ (num / den : ℚ)) := by
  let guess : ℤ := num.log2 - den.log2 - 52
  have hbounds : (2 ^ 51 * 2 ^ guess : ℚ) ≤ num / den ∧ (num / den : ℚ) < 2 ^ 53 * 2 ^ guess :=
    quotient_bounds hnum hden
  obtain ⟨e, he, hhigh, hlow⟩ : ∃ e : ℤ, exponentOf num den = max leastExponent e ∧
      (num / den : ℚ) < 2 ^ 53 * 2 ^ e ∧ 2 ^ 52 * 2 ^ e ≤ (num / den : ℚ) := by
    have hshort := inUnits_lt_iff num hden guess
    by_cases h : (inUnits num den guess).1 < leadingBit * (inUnits num den guess).2
    · refine ⟨guess - 1, congrArg (max leastExponent) (if_pos h), ?_, ?_⟩
      · calc (num / den : ℚ) < 2 ^ 52 * 2 ^ guess := hshort.1 h
          _ = 2 ^ 53 * 2 ^ (guess - 1) := by rw [zpow_sub_one₀ (by norm_num)]; ring
      · calc (2 ^ 52 * 2 ^ (guess - 1) : ℚ) = 2 ^ 51 * 2 ^ guess := by
              rw [zpow_sub_one₀ (by norm_num)]
              ring
          _ ≤ num / den := hbounds.1
    · exact ⟨guess, congrArg (max leastExponent) (if_neg h), hbounds.2, not_lt.1 (hshort.not.1 h)⟩
  rw [he]
  obtain hle | hlt := le_or_gt leastExponent e
  · rw [max_eq_right hle]
    exact ⟨hle, hhigh, .inr hlow⟩
  · rw [max_eq_left hlt.le]
    refine ⟨le_rfl, hhigh.trans_le ?_, .inl rfl⟩
    have hpow : (2 : ℚ) ^ e ≤ 2 ^ leastExponent := zpow_le_zpow_right₀ (by norm_num) hlt.le
    gcongr

end Quotient

section Mantissa

variable {q : ℚ} {e : ℤ} {m : ℕ}

theorem overflow_le_of_greatest_lt (hlow : e = leastExponent ∨ 2 ^ 52 * 2 ^ e ≤ q)
    (he : greatestExponent < e) : overflow ≤ q := by
  have hleast : e ≠ leastExponent := by
    rintro rfl
    exact absurd he (by decide)
  calc overflow ≤ 2 ^ 53 * 2 ^ greatestExponent := by
        rw [overflow]
        gcongr
        norm_num
    _ = 2 ^ 52 * 2 ^ (greatestExponent + 1) := by
      rw [zpow_add_one₀ (by norm_num)]
      ring
    _ ≤ 2 ^ 52 * 2 ^ e := by
      gcongr
      · norm_num
      · omega
    _ ≤ q := hlow.resolve_left hleast

theorem mantissa_bounds (hhigh : q < 2 ^ 53 * 2 ^ e)
    (hlow : e = leastExponent ∨ 2 ^ 52 * 2 ^ e ≤ q) (hnear : |q / 2 ^ e - m| ≤ 1 / 2) :
    m ≤ 2 ^ 53 ∧ (e = leastExponent ∨ 2 ^ 52 ≤ m) := by
  have hunit : (0 : ℚ) < 2 ^ e := by positivity
  rw [← div_lt_iff₀ hunit] at hhigh
  rw [← le_div_iff₀ hunit] at hlow
  rw [abs_le] at hnear
  constructor
  · have hlt : (m : ℚ) < (2 ^ 53 + 1 : ℕ) := by
      push_cast
      linarith
    exact Nat.lt_succ_iff.1 (by exact_mod_cast hlt)
  · refine hlow.imp_right fun hlow => ?_
    have hlt : ((2 ^ 52 : ℕ) : ℚ) < (m + 1 : ℕ) := by
      push_cast
      linarith
    exact Nat.lt_succ_iff.1 (by exact_mod_cast hlt)

theorem lt_overflow_of_lt_greatest (he : e < greatestExponent) (hhigh : q < 2 ^ 53 * 2 ^ e) :
    q < overflow := by
  calc q < 2 ^ 53 * 2 ^ e := hhigh
    _ ≤ 2 ^ 53 * 2 ^ (greatestExponent - 1) := by
      gcongr
      · norm_num
      · omega
    _ = 2 ^ 52 * 2 ^ greatestExponent := by
      rw [zpow_sub_one₀ (by norm_num)]
      ring
    _ ≤ overflow := by
      rw [overflow]
      gcongr
      norm_num

/-- With a mantissa of 53 bits, what is rounded is below the overflow. -/
theorem lt_overflow (he : e ≤ greatestExponent) (hhigh : q < 2 ^ 53 * 2 ^ e)
    (hnear : |q / 2 ^ e - m| ≤ 1 / 2) (htie : |q / 2 ^ e - m| = 1 / 2 → 2 ∣ m) (hm : m < 2 ^ 53) :
    q < overflow := by
  have hunit : (0 : ℚ) < 2 ^ e := by positivity
  obtain hlt | rfl := he.lt_or_eq
  · exact lt_overflow_of_lt_greatest hlt hhigh
  · rw [overflow, ← div_lt_iff₀ hunit]
    have hm' : (m : ℚ) + 1 ≤ 2 ^ 53 := by exact_mod_cast hm
    have hle : q / 2 ^ greatestExponent - m ≤ 1 / 2 := (le_abs_self _).trans hnear
    refine lt_of_le_of_ne (by linarith) fun heq => ?_
    -- A tie just below `2 ^ 53` would have been rounded up to it, since the mantissa is odd.
    have hgreatest : (m : ℚ) + 1 = 2 ^ 53 := by linarith
    have hgreatest : m + 1 = 2 ^ 53 := by exact_mod_cast hgreatest
    have hhalf : q / 2 ^ greatestExponent - m = 1 / 2 := by linarith
    have heven := htie (by rw [hhalf]; norm_num)
    omega

theorem roundsTo_toFloat (hleast : leastExponent ≤ e) (he : e ≤ greatestExponent)
    (hhigh : q < 2 ^ 53 * 2 ^ e) (hlow : e = leastExponent ∨ 2 ^ 52 * 2 ^ e ≤ q)
    (hnear : |q / 2 ^ e - m| ≤ 1 / 2) (htie : |q / 2 ^ e - m| = 1 / 2 → 2 ∣ m) :
    RoundsTo false q (toFloat ⟨false, m, e⟩) := by
  have hbit : leadingBit = 2 ^ 52 := rfl
  obtain ⟨hm, hleading⟩ := mantissa_bounds hhigh hlow hnear
  obtain hlt | rfl := hm.lt_or_eq
  · have hcanonical : IsCanonical ⟨false, m, e⟩ := ⟨by simp only; omega, hleast, he, by rwa [hbit]⟩
    rw [RoundsTo, if_pos (lt_overflow he hhigh hnear htie hlt)]
    exact ⟨_, ofFloat?_toFloat hcanonical, rfl, isNearest_of_near rfl id hnear htie hlow⟩
  · have hlong : 2 ^ 53 = 2 * leadingBit := rfl
    obtain hlt | rfl := he.lt_or_eq
    · have hcanonical : IsCanonical ⟨false, leadingBit, e + 1⟩ := by
        refine ⟨?_, ?_, ?_, .inr le_rfl⟩ <;> simp only <;> omega
      have hcarry : magnitude ⟨false, leadingBit, e + 1⟩ = (2 ^ 53 : ℕ) * 2 ^ e := by
        rw [magnitude, hbit, zpow_add_one₀ (by norm_num)]
        push_cast
        ring
      rw [RoundsTo, if_pos (lt_overflow_of_lt_greatest hlt hhigh), hlong, toFloat_carry hleast]
      exact ⟨_, ofFloat?_toFloat hcanonical, rfl,
        isNearest_of_near hcarry (fun _ => ⟨2 ^ 51, rfl⟩) hnear htie hlow⟩
    · have hoverflow : ¬ q < overflow := by
        have hunit : (0 : ℚ) < 2 ^ greatestExponent := by positivity
        have hge : -(1 / 2) ≤ q / 2 ^ greatestExponent - (2 ^ 53 : ℕ) := (abs_le.1 hnear).1
        rw [overflow, ← div_lt_iff₀ hunit, not_lt]
        push_cast at hge
        linarith
      rw [RoundsTo, if_neg hoverflow, hlong, toFloat_greatest]
      rfl

end Mantissa

theorem roundsTo_nearest {num den : ℕ} (hnum : 0 < num) (hden : 0 < den) :
    RoundsTo false (num / den) (nearest num den) := by
  obtain ⟨hleast, hhigh, hlow⟩ := exponentOf_bounds hnum hden
  have hnear := roundQuotient_near_rat (inUnits num den (exponentOf num den)).1
    (inUnits_pos num hden (exponentOf num den))
  have htie := even_roundQuotient_of_tie (inUnits num den (exponentOf num den)).1
    (inUnits_pos num hden (exponentOf num den))
  rw [inUnits_eq] at hnear htie
  simp only [nearest]
  by_cases he : greatestExponent < exponentOf num den
  · rw [if_pos he, RoundsTo, if_neg (overflow_le_of_greatest_lt hlow he).not_gt]
    rfl
  · rw [if_neg he]
    exact roundsTo_toFloat hleast (not_lt.1 he) hhigh hlow hnear htie

theorem RoundsTo.neg {q : ℚ} {x : Float} (h : RoundsTo false q x) : RoundsTo true q (-x) := by
  unfold RoundsTo at h ⊢
  by_cases hq : q < overflow
  · rw [if_pos hq] at h ⊢
    obtain ⟨b, hb, hpositive, hnear, heven⟩ := h
    exact ⟨_, ofFloat?_neg hb hpositive, rfl, hnear, heven⟩
  · rw [if_neg hq] at h ⊢
    rw [h]
    rfl

section Unique

variable {b b' : Binary}

theorem IsCanonical.magnitude_lt_of_exponent_lt (h : b.IsCanonical) (h' : b'.IsCanonical)
    (he : b.exponent < b'.exponent) : b.magnitude < b'.magnitude := by
  have hleast : b'.exponent ≠ leastExponent := (h.leastExponent_le.trans_lt he).ne'
  have hleading : leadingBit ≤ b'.mantissa := h'.leading.resolve_left hleast
  have hmantissa : (2 ^ 52 : ℚ) ≤ b'.mantissa := by
    have hbit : leadingBit = 2 ^ 52 := rfl
    rw [hbit] at hleading
    exact_mod_cast hleading
  calc b.magnitude < 2 ^ 52 * 2 ^ b'.exponent := h.magnitude_lt he
    _ ≤ b'.mantissa * 2 ^ b'.exponent := mul_le_mul_of_nonneg_right hmantissa (by positivity)

theorem IsCanonical.eq_of_magnitude_eq (h : b.IsCanonical) (h' : b'.IsCanonical)
    (heq : b.magnitude = b'.magnitude) :
    b.mantissa = b'.mantissa ∧ b.exponent = b'.exponent := by
  have hexponent : b.exponent = b'.exponent := by
    obtain hlt | hexponent | hlt := lt_trichotomy b.exponent b'.exponent
    · exact absurd heq (h.magnitude_lt_of_exponent_lt h' hlt).ne
    · exact hexponent
    · exact absurd heq (h'.magnitude_lt_of_exponent_lt h hlt).ne'
  have hunit : (2 : ℚ) ^ b'.exponent ≠ 0 := by positivity
  rw [magnitude, magnitude, hexponent, mul_left_inj' hunit] at heq
  exact ⟨by exact_mod_cast heq, hexponent⟩

/-- The next mantissa gives the next double. -/
theorem IsCanonical.next_le (h : b.IsCanonical) (h' : b'.IsCanonical)
    (hlt : b.magnitude < b'.magnitude) : (b.mantissa + 1) * 2 ^ b.exponent ≤ b'.magnitude := by
  have hunit : (0 : ℚ) < 2 ^ b.exponent := by positivity
  by_cases hexponent : b.exponent ≤ b'.exponent
  · obtain ⟨k, hk⟩ := exists_magnitude_eq hexponent
    rw [hk, magnitude, mul_lt_mul_iff_left₀ hunit] at hlt
    have hint : (b.mantissa : ℤ) < k := by exact_mod_cast hlt
    have hnext : (b.mantissa + 1 : ℚ) ≤ k := by exact_mod_cast hint
    rw [hk]
    exact mul_le_mul_of_nonneg_right hnext hunit.le
  · exact absurd hlt (h'.magnitude_lt_of_exponent_lt h (not_le.1 hexponent)).not_gt

/-- Two doubles of different sizes are not both nearest: the mantissa behind an even one is odd. -/
theorem IsNearest.not_lt {q : ℚ} {x y : Float} (hx : ofFloat? x = some b)
    (hy : ofFloat? y = some b') (h : b.IsNearest q) (h' : b'.IsNearest q) :
    ¬ b.magnitude < b'.magnitude := by
  intro hlt
  have hb := isCanonical_of_ofFloat? hx
  have hb' := isCanonical_of_ofFloat? hy
  have htie : |q - b.magnitude| = |q - b'.magnitude| :=
    le_antisymm (h.near y b' hy) (h'.near x b hx)
  have heven : 2 ∣ b.mantissa := h.even y b' hy hlt.ne' htie.symm
  let next : Binary := ⟨false, b.mantissa + 1, b.exponent⟩
  have hnext : next.IsCanonical := by
    have hbit : leadingBit = 2 ^ 52 := rfl
    have hmantissa := hb.mantissa_lt
    refine ⟨?_, hb.leastExponent_le, hb.exponent_le, hb.leading.imp_right fun hle => ?_⟩
    · change b.mantissa + 1 < 2 * leadingBit
      omega
    · exact hle.trans (Nat.le_succ _)
  have hsize : next.magnitude = (b.mantissa + 1) * 2 ^ b.exponent := by
    have hcast : (next.mantissa : ℚ) = b.mantissa + 1 := Nat.cast_succ _
    rw [magnitude, hcast]
  have habove : b.magnitude < next.magnitude := by
    rw [hsize, magnitude]
    gcongr
    exact lt_add_one _
  obtain hbetween | heq := (hsize.trans_le (hb.next_le hb' hlt)).lt_or_eq
  · have hclose := h.near _ next (ofFloat?_toFloat hnext)
    have hmiddle : q - b.magnitude = -(q - b'.magnitude) :=
      ((abs_eq_abs.1 htie).resolve_left fun heq => hlt.ne (sub_right_injective heq))
    have hpositive : 0 < q - b.magnitude := by linarith
    rw [abs_of_pos hpositive, le_abs] at hclose
    obtain hclose | hclose := hclose <;> linarith
  · -- The larger double is the next one, and ties do not go to odd mantissas.
    have heven' : 2 ∣ b'.mantissa := h'.even x b hx hlt.ne htie
    have hmantissa : b.mantissa + 1 = b'.mantissa := (hnext.eq_of_magnitude_eq hb' heq).1
    omega

/-- There is one double that a number rounds to. -/
theorem RoundsTo.unique {negative : Bool} {q : ℚ} {x y : Float} (hx : RoundsTo negative q x)
    (hy : RoundsTo negative q y) : x = y := by
  unfold RoundsTo at hx hy
  by_cases hq : q < overflow
  · rw [if_pos hq] at hx hy
    obtain ⟨b, hb, hsign, hnear⟩ := hx
    obtain ⟨b', hb', hsign', hnear'⟩ := hy
    have heq : b.magnitude = b'.magnitude :=
      le_antisymm (not_lt.1 (hnear'.not_lt hb' hb hnear)) (not_lt.1 (hnear.not_lt hb hb' hnear'))
    obtain ⟨hmantissa, hexponent⟩ :=
      (isCanonical_of_ofFloat? hb).eq_of_magnitude_eq (isCanonical_of_ofFloat? hb') heq
    have hsame : b = b' := by
      cases b
      cases b'
      simp_all
    rw [← toFloat_of_ofFloat? hb, ← toFloat_of_ofFloat? hb', hsame]
  · rw [if_neg hq] at hx hy
    rw [hx, hy]

end Unique
end Binary

namespace Numeral

open Binary (RoundsTo)

/-- The size of the number. -/
def magnitude (n : Numeral) : ℚ := n.digits * 10 ^ n.exponent

variable {n : Numeral}

theorem two_pow_lt_ten_pow : (2 : ℚ) ^ 1075 < 10 ^ 400 := by
  calc (2 : ℚ) ^ 1075 < 2 ^ 1200 := pow_lt_pow_right₀ (by norm_num) (by norm_num)
    _ = (2 ^ 12) ^ 100 := pow_mul 2 12 100
    _ ≤ (10 ^ 4) ^ 100 := pow_le_pow_left₀ (by norm_num) (by norm_num) 100
    _ = 10 ^ 400 := (pow_mul 10 4 100).symm

theorem magnitude_lt (h : n.digits = 0 ∨ n.exponent + n.digits.log2 + 400 < 0) :
    n.magnitude < 2 ^ Binary.leastExponent / 2 := by
  have hhalf : (2 : ℚ) ^ Binary.leastExponent / 2 = (2 ^ 1075)⁻¹ := by
    have hleast : Binary.leastExponent = -((1074 : ℕ) : ℤ) := rfl
    rw [hleast, zpow_neg, zpow_natCast, pow_succ _ 1074, mul_inv, div_eq_mul_inv]
  rw [hhalf, magnitude]
  obtain hzero | hsmall := h
  · rw [hzero, Nat.cast_zero, zero_mul]
    positivity
  · have hdigits : (n.digits : ℚ) < 2 ^ (n.digits.log2 + 1) := by exact_mod_cast Nat.lt_log2_self
    have hexponent : n.exponent ≤ -((n.digits.log2 + 1 : ℕ) : ℤ) + -((400 : ℕ) : ℤ) := by omega
    have hpow : (10 : ℚ) ^ n.exponent ≤ (10 ^ (n.digits.log2 + 1))⁻¹ * (10 ^ 400)⁻¹ := by
      rw [← zpow_natCast, ← zpow_natCast, ← zpow_neg, ← zpow_neg, ← zpow_add₀ (by norm_num)]
      exact zpow_le_zpow_right₀ (by norm_num) hexponent
    calc (n.digits * 10 ^ n.exponent : ℚ)
        ≤ 2 ^ (n.digits.log2 + 1) * ((10 ^ (n.digits.log2 + 1))⁻¹ * (10 ^ 400)⁻¹) := by gcongr
      _ = (2 / 10) ^ (n.digits.log2 + 1) * (10 ^ 400)⁻¹ := by
        rw [div_pow, div_eq_mul_inv, mul_assoc]
      _ ≤ 1 * (10 ^ 400)⁻¹ := by
        gcongr
        exact pow_le_one₀ (by norm_num) (by norm_num)
      _ < (2 ^ 1075)⁻¹ := by
        rw [one_mul]
        exact inv_strictAnti₀ (by positivity) two_pow_lt_ten_pow

theorem overflow_le_magnitude (hdigits : n.digits ≠ 0) (h : 400 < n.exponent) :
    Binary.overflow ≤ n.magnitude := by
  have hone : (1 : ℚ) ≤ n.digits := by exact_mod_cast Nat.one_le_iff_ne_zero.2 hdigits
  have hgreatest : Binary.greatestExponent = ((971 : ℕ) : ℤ) := rfl
  calc Binary.overflow ≤ 10 ^ ((400 : ℕ) : ℤ) := by
        rw [Binary.overflow, hgreatest, zpow_natCast, zpow_natCast]
        calc ((2 ^ 53 - 1 / 2) * 2 ^ 971 : ℚ) ≤ 2 ^ 53 * 2 ^ 971 := by
              gcongr
              norm_num
          _ = 2 ^ 1024 := (pow_add 2 53 971).symm
          _ ≤ 2 ^ 1075 := pow_le_pow_right₀ (by norm_num) (by norm_num)
          _ ≤ 10 ^ 400 := two_pow_lt_ten_pow.le
    _ ≤ 10 ^ n.exponent := zpow_le_zpow_right₀ (by norm_num) (by omega)
    _ ≤ n.digits * 10 ^ n.exponent := le_mul_of_one_le_left (by positivity) hone

theorem roundsTo_zero {q : ℚ} (hq : 0 ≤ q) (hsmall : q < 2 ^ Binary.leastExponent / 2) :
    RoundsTo false q 0 := by
  have hpow : (2 : ℚ) ^ Binary.leastExponent ≤ 2 ^ Binary.greatestExponent :=
    zpow_le_zpow_right₀ (by norm_num) (by decide)
  have hoverflow : q < Binary.overflow := by
    calc q < 2 ^ Binary.leastExponent / 2 := hsmall
      _ = 1 / 2 * 2 ^ Binary.leastExponent := by ring
      _ ≤ (2 ^ 53 - 1 / 2) * 2 ^ Binary.greatestExponent :=
        mul_le_mul (by norm_num) hpow (by positivity) (by norm_num)
  have hzero : Binary.ofFloat? 0 = some ⟨false, 0, Binary.leastExponent⟩ := by decide +kernel
  rw [RoundsTo, if_pos hoverflow]
  exact ⟨_, hzero, rfl, Binary.isNearest_zero hq hsmall false⟩

/-- A numeral becomes the double nearest to its number. -/
theorem roundsTo_toFloat (n : Numeral) : RoundsTo n.negative n.magnitude n.toFloat := by
  have hsign : ∀ x : Float, RoundsTo false n.magnitude x →
      RoundsTo n.negative n.magnitude (if n.negative then -x else x) := by
    intro x hx
    cases n.negative with
    | false => exact hx
    | true => exact hx.neg
  rw [toFloat]
  apply hsign
  split_ifs with hsmall hlarge
  · have hnonneg : 0 ≤ n.magnitude := by
      rw [magnitude]
      positivity
    exact roundsTo_zero hnonneg (magnitude_lt hsmall)
  · rw [not_or] at hsmall
    rw [RoundsTo, if_neg (overflow_le_magnitude hsmall.1 hlarge).not_gt]
    rfl
  · rw [not_or] at hsmall
    have hdigits : 0 < n.digits := Nat.pos_of_ne_zero hsmall.1
    cases hexponent : n.exponent with
    | ofNat e =>
      have hmagnitude : n.magnitude = (n.digits * Nat.pow 10 e : ℕ) / (1 : ℕ) := by
        rw [magnitude, hexponent, Nat.cast_one, div_one, Nat.pow_eq, Int.ofNat_eq_natCast,
          zpow_natCast]
        push_cast
        rfl
      rw [hmagnitude]
      exact Binary.roundsTo_nearest (Nat.mul_pos hdigits (Nat.pow_pos (by decide))) Nat.one_pos
    | negSucc e =>
      have hmagnitude : n.magnitude = (n.digits : ℕ) / (Nat.pow 10 (e + 1) : ℕ) := by
        rw [magnitude, hexponent, Nat.pow_eq, zpow_negSucc, div_eq_mul_inv]
        push_cast
        rfl
      rw [hmagnitude]
      exact Binary.roundsTo_nearest hdigits (Nat.pow_pos (by decide))

end Numeral

end Toolpath
