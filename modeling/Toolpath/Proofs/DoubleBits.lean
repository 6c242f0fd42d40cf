import Toolpath.Decimal.Nearest
import Toolpath.Proofs.Truncation

/-!
# Doubles from their parts

A double has a mantissa of 53 bits, or a shorter one with the least exponent. A number in binary
notation with such parts is put into bits from which the same parts are read off, and the minus of
a double differs from it in the highest bit.
-/

namespace Toolpath

open Float.Model Float.Model.UnpackedFloat

namespace Binary

/-- The parts that a double can have: a mantissa of 53 bits, or a shorter one with the least
exponent. -/
structure IsCanonical (b : Binary) : Prop where
  mantissa_lt : b.mantissa < 2 * leadingBit
  leastExponent_le : leastExponent ≤ b.exponent
  exponent_le : b.exponent ≤ greatestExponent
  leading : b.exponent = leastExponent ∨ leadingBit ≤ b.mantissa

section Bits

theorem isCanonical_of_ofFloat? {x : Float} {b : Binary} (h : ofFloat? x = some b) : b.IsCanonical := by
  have hbit : leadingBit = 2 ^ 52 := rfl
  have hleast : leastExponent = -1074 := rfl
  have hgreatest : greatestExponent = 971 := rfl
  have hsize : Nat.pow 2 11 = 2048 := rfl
  simp only [ofFloat?] at h
  have hscale := Nat.mod_lt (x.toBits.toNat / leadingBit) (y := Nat.pow 2 11) (by decide)
  have hfraction := Nat.mod_lt x.toBits.toNat (y := leadingBit) (by decide)
  split_ifs at h with hinfinite hsmall
  · obtain rfl := Option.some.inj h
    refine ⟨?_, ?_, ?_, .inl rfl⟩ <;> simp only <;> omega
  · obtain rfl := Option.some.inj h
    refine ⟨?_, ?_, ?_, .inr ?_⟩ <;> simp only <;> omega

/-- Bits that are not NaN stay as they are in a double. -/
theorem toNat_toBits_ofBits {n : Nat} (hn : n < 2 ^ 64) (h : n / 2 ^ 52 % 2 ^ 11 ≠ 0x7FF) :
    (Float.ofBits n.toUInt64).toBits.toNat = n := by
  have hw : n.toUInt64.toBitVec.toNat = n := Nat.mod_eq_of_lt hn
  have hnan : @isNaNBits Format.binary64 n.toUInt64.toBitVec = false := by
    rw [isNaNBits, decide_eq_false_iff_not]
    rintro ⟨hones, -⟩
    rw [← BitVec.toNat_inj, toNat_unpackExponent, hw] at hones
    exact h hones
  have hpack := @pack_unpack Format.binary64 n.toUInt64.toBitVec (by decide)
  rw [hnan, if_neg Bool.false_ne_true] at hpack
  change (pack Format.binary64 (unpack Format.binary64 n.toUInt64.toBitVec)).toNat = n
  rw [hpack, hw]

theorem ofFloat?_ofBits {n : Nat} (hn : n < 2 ^ 64) (h : n / 2 ^ 52 % 2 ^ 11 ≠ 0x7FF) :
    ofFloat? (Float.ofBits n.toUInt64) =
      if n / 2 ^ 52 % 2 ^ 11 = 0 then some ⟨n / 2 ^ 63 == 1, n % 2 ^ 52, leastExponent⟩
      else some ⟨n / 2 ^ 63 == 1, 2 ^ 52 + n % 2 ^ 52,
        ((n / 2 ^ 52 % 2 ^ 11 : Nat) : Int) - 1 + leastExponent⟩ := by
  simp only [ofFloat?, toNat_toBits_ofBits hn h]
  exact if_neg h

theorem ofFloat?_toFloat {b : Binary} (h : b.IsCanonical) : ofFloat? b.toFloat = some b := by
  obtain ⟨hmantissa, hleast, hgreatest, hleading⟩ := h
  obtain ⟨negative, m, e⟩ := b
  have hbit : leadingBit = 2 ^ 52 := rfl
  have hleastExponent : leastExponent = -1074 := rfl
  have hgreatestExponent : greatestExponent = 971 := rfl
  simp only [hbit, hleastExponent, hgreatestExponent] at hmantissa hleast hgreatest hleading
  obtain ⟨sign, hsign, hnegative, hsignBits⟩ : ∃ sign < 2, negative = (sign == 1) ∧
      (if negative then Nat.pow 2 63 else 0) = sign * 2 ^ 63 := by
    cases negative with
    | false => exact ⟨0, by decide, rfl, (Nat.zero_mul _).symm⟩
    | true => exact ⟨1, by decide, rfl, (Nat.one_mul _).symm⟩
  have hfloat : toFloat ⟨negative, m, e⟩ = Float.ofBits (sign * 2 ^ 63 +
      (if m < 2 ^ 52 then 0 else (e - leastExponent).toNat) * 2 ^ 52 + m).toUInt64 := by
    simp only [toFloat, hsignBits, hbit]
  rw [hfloat, hnegative]
  split_ifs with hsmall
  · have hexponent : e = leastExponent := by omega
    have hscale : (sign * 2 ^ 63 + 0 * 2 ^ 52 + m) / 2 ^ 52 % 2 ^ 11 = 0 := by omega
    have hfraction : (sign * 2 ^ 63 + 0 * 2 ^ 52 + m) % 2 ^ 52 = m := by omega
    have hsignBit : (sign * 2 ^ 63 + 0 * 2 ^ 52 + m) / 2 ^ 63 = sign := by omega
    rw [ofFloat?_ofBits (by omega) (by omega), if_pos hscale, hfraction, hsignBit, hexponent]
  · obtain ⟨k, rfl⟩ : ∃ k : Nat, e = k + leastExponent :=
      ⟨(e - leastExponent).toNat, by omega⟩
    have hk : ((k : Int) + leastExponent - leastExponent).toNat = k := by omega
    rw [hk]
    have hscale : (sign * 2 ^ 63 + k * 2 ^ 52 + m) / 2 ^ 52 % 2 ^ 11 = k + 1 := by omega
    have hfraction : 2 ^ 52 + (sign * 2 ^ 63 + k * 2 ^ 52 + m) % 2 ^ 52 = m := by omega
    have hsignBit : (sign * 2 ^ 63 + k * 2 ^ 52 + m) / 2 ^ 63 = sign := by omega
    rw [ofFloat?_ofBits (by omega) (by omega), if_neg (by omega), hfraction, hsignBit, hscale]
    simp

theorem toFloat_of_ofFloat? {x : Float} {b : Binary} (h : ofFloat? x = some b) : b.toFloat = x := by
  have hbit : leadingBit = 2 ^ 52 := rfl
  have hpow : Nat.pow 2 63 = 2 ^ 63 := rfl
  have hscaleSize : Nat.pow 2 11 = 2 ^ 11 := rfl
  have hn : x.toBits.toNat < 2 ^ 64 := x.toBits.toNat_lt
  have hx : Float.ofBits x.toBits.toNat.toUInt64 = x := by
    rw [Nat.toUInt64_eq, UInt64.ofNat_toNat, Float.ofBits_toBits]
  have hsign : (if x.toBits.toNat / 2 ^ 63 == 1 then 2 ^ 63 else 0) =
      x.toBits.toNat / 2 ^ 63 * 2 ^ 63 := by
    split_ifs with hone
    · rw [beq_iff_eq] at hone
      omega
    · rw [beq_iff_eq] at hone
      omega
  simp only [ofFloat?, hbit, hpow, hscaleSize] at h
  split_ifs at h with hinfinite hsmall
  · obtain rfl := Option.some.inj h
    have hshort : x.toBits.toNat % 2 ^ 52 < 2 ^ 52 := Nat.mod_lt _ (by decide)
    simp only [toFloat, hbit, hpow, hsign, if_pos hshort]
    conv_rhs => rw [← hx]
    congr 2
    omega
  · obtain rfl := Option.some.inj h
    have hlong : ¬ 2 ^ 52 + x.toBits.toNat % 2 ^ 52 < 2 ^ 52 := by omega
    simp only [toFloat, hbit, hpow, hsign, if_neg hlong]
    conv_rhs => rw [← hx]
    congr 2
    omega

/-- A mantissa of `2 ^ 53` carries over into the exponent. -/
theorem toFloat_carry {e : Int} (h : leastExponent ≤ e) (negative : Bool) :
    toFloat ⟨negative, 2 * leadingBit, e⟩ = toFloat ⟨negative, leadingBit, e + 1⟩ := by
  have hbit : leadingBit = 2 ^ 52 := rfl
  have hscale : (e - leastExponent).toNat * leadingBit + 2 * leadingBit =
      (e + 1 - leastExponent).toNat * leadingBit + leadingBit := by
    have hnext : (e + 1 - leastExponent).toNat = (e - leastExponent).toNat + 1 := by omega
    rw [hnext, hbit]
    omega
  have hlong : ¬ 2 * leadingBit < leadingBit := by omega
  simp only [toFloat, if_neg hlong, if_neg (lt_irrefl leadingBit), Nat.add_assoc, hscale]

theorem toFloat_greatest : toFloat ⟨false, 2 * leadingBit, greatestExponent⟩ = infinity := by
  decide +kernel

section Negation

variable {w w' : BitVec 64} (h : w'.toNat = w.toNat + 2 ^ 63)
include h

/-- The highest bit is the sign alone. -/
theorem unpack_eq_neg : UnpackedFloat.unpack Format.binary64 w' =
    (UnpackedFloat.unpack Format.binary64 w).neg := by
  have hw := w'.isLt
  have hexponent : @unpackExponent Format.binary64 w' = @unpackExponent Format.binary64 w := by
    rw [← BitVec.toNat_inj, toNat_unpackExponent, toNat_unpackExponent]
    omega
  have hmantissa : @unpackMantissa Format.binary64 w' = @unpackMantissa Format.binary64 w := by
    rw [← BitVec.toNat_inj, toNat_unpackMantissa, toNat_unpackMantissa]
    omega
  have hsign : Sign.ofBitVec (@unpackSign Format.binary64 w') =
      -Sign.ofBitVec (@unpackSign Format.binary64 w) := by
    have hone : w'.toNat / 2 ^ 63 = 1 := by omega
    have hzero : w.toNat / 2 ^ 63 = 0 := by omega
    rw [ofBitVec_unpackSign, ofBitVec_unpackSign, hone, hzero]
    rfl
  simp only [UnpackedFloat.unpack, hexponent, hmantissa, hsign]
  split_ifs <;> rfl

end Negation

theorem ofFloat?_neg {x : Float} {b : Binary} (h : ofFloat? x = some b)
    (hpositive : b.negative = false) : ofFloat? (-x) = some { b with negative := true } := by
  let n := x.toBits.toNat
  have hn : n < 2 ^ 64 := x.toBits.toBitVec.isLt
  have hbits : ofFloat? x =
      if n / 2 ^ 52 % 2 ^ 11 = 0x7FF then none
      else if n / 2 ^ 52 % 2 ^ 11 = 0 then some ⟨n / 2 ^ 63 == 1, n % 2 ^ 52, leastExponent⟩
      else some ⟨n / 2 ^ 63 == 1, 2 ^ 52 + n % 2 ^ 52,
        ((n / 2 ^ 52 % 2 ^ 11 : Nat) : Int) - 1 + leastExponent⟩ := rfl
  have hfinite : n / 2 ^ 52 % 2 ^ 11 ≠ 0x7FF := by
    intro hinfinite
    rw [hbits, if_pos hinfinite] at h
    cases h
  rw [hbits, if_neg hfinite] at h
  have hsign : n / 2 ^ 63 = 0 := by
    have hnot : (n / 2 ^ 63 == 1) = false := by
      rw [← hpositive]
      split_ifs at h <;> exact congrArg negative (Option.some.inj h)
    rw [beq_eq_false_iff_ne] at hnot
    omega
  have hflip : (n + 2 ^ 63).toUInt64.toBitVec.toNat = x.toBits.toBitVec.toNat + 2 ^ 63 := by
    rw [Nat.toUInt64_eq, UInt64.toNat_toBitVec, UInt64.toNat_ofNat']
    exact Nat.mod_eq_of_lt (by omega)
  have hneg : -x = Float.ofBits (n + 2 ^ 63).toUInt64 := by
    rw [Float.ofBits, Float.Model.ofBits, unpack_eq_neg hflip]
    rfl
  have hscale : (n + 2 ^ 63) / 2 ^ 52 % 2 ^ 11 = n / 2 ^ 52 % 2 ^ 11 := by omega
  have hfraction : (n + 2 ^ 63) % 2 ^ 52 = n % 2 ^ 52 := by omega
  have hsign' : (n + 2 ^ 63) / 2 ^ 63 = 1 := by omega
  rw [hneg, ofFloat?_ofBits (by omega) (by omega), hscale, hfraction, hsign']
  split_ifs at h ⊢ with hsmall
  · obtain rfl := Option.some.inj h
    rfl
  · obtain rfl := Option.some.inj h
    rfl

end Bits

end Binary

end Toolpath
