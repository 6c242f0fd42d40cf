import Mathlib
import Toolpath.Decimal.Binary

/-!
# Doubles as unsigned integers

A double that is not negative becomes an unsigned integer of 32 bits by losing its fraction, and the
greatest of these integers if it is beyond them. The proof reads the sign, the exponent and the
mantissa off the bits, in which the double is given to both sides.
-/

namespace Toolpath

open Float.Model Float.Model.UnpackedFloat

namespace Binary

/-- The integer part of a number that is not negative, or `2 ^ 32 - 1` if that is less. -/
def saturated (x : Float) : Nat :=
  match ofFloat? x with
  | some b => min (2 ^ 32 - 1) b.truncate.toNat
  | none => 2 ^ 32 - 1

section Bits

variable (w : BitVec 64)

theorem toNat_unpackExponent :
    (@unpackExponent Format.binary64 w).toNat = w.toNat / 2 ^ 52 % 2 ^ 11 := by
  simp [unpackExponent, BitVec.extractLsb, Nat.shiftRight_eq_div_pow]

theorem toNat_unpackMantissa :
    (@unpackMantissa Format.binary64 w).toNat = w.toNat % 2 ^ 52 := by
  simp [unpackMantissa, BitVec.extractLsb]

theorem ofBitVec_unpackSign :
    Sign.ofBitVec (@unpackSign Format.binary64 w) =
      if w.toNat / 2 ^ 63 == 1 then .negative else .positive := by
  have hw := w.isLt
  have hsign : (@unpackSign Format.binary64 w).toNat = w.toNat / 2 ^ 63 := by
    simp [unpackSign, BitVec.extractLsb, Nat.shiftRight_eq_div_pow]
    omega
  have hzero : @unpackSign Format.binary64 w = 0#1 ↔ w.toNat / 2 ^ 63 ≠ 1 := by
    rw [← BitVec.toNat_inj, hsign, BitVec.toNat_ofNat]
    omega
  rw [Sign.ofBitVec]
  simp only [hzero, ne_eq, ite_not, beq_iff_eq]

end Bits

/-- The unpacked form of a number in binary notation, where zero has a form of its own. -/
def Unpacks (b : Binary) (f : UnpackedFloat) : Prop :=
  let sign : Sign := if b.negative then .negative else .positive
  f = .zero sign ∧ b.mantissa = 0 ∨ ∃ h, f = .finite sign b.mantissa b.exponent h

theorem exists_finite_eq (sign : Sign) {m m' : Nat} {e e' : Int} (hm : m = m') (he : e = e')
    (h : 0 < m) :
    ∃ h', UnpackedFloat.finite sign m e h = .finite sign m' e' h' := by
  subst hm he
  exact ⟨h, rfl⟩

/-- A double is infinite, not a number, or the number that its bits give in binary notation. -/
theorem unpack_cases (x : Float) :
    ofFloat? x = none ∧
        (x.toModel.unpack = .notANumber ∨ ∃ sign, x.toModel.unpack = .infinity sign) ∨
      ∃ b : Binary, ofFloat? x = some b ∧ b.Unpacks x.toModel.unpack := by
  let w : BitVec 64 := x.toBits.toBitVec
  let scale : Nat := w.toNat / 2 ^ 52 % 2 ^ 11
  have hunpack : x.toModel.unpack = UnpackedFloat.unpack Format.binary64 w := rfl
  have hbits : ofFloat? x =
      if scale = 0x7FF then none
      else if scale = 0 then some ⟨w.toNat / 2 ^ 63 == 1, w.toNat % 2 ^ 52, -1074⟩
      else some ⟨w.toNat / 2 ^ 63 == 1, 2 ^ 52 + w.toNat % 2 ^ 52, (scale : Int) - 1 + -1074⟩ := rfl
  have hones : @unpackExponent Format.binary64 w = -1#_ ↔ scale = 0x7FF := by
    rw [← BitVec.toNat_inj, toNat_unpackExponent]
    rfl
  have hzero : @unpackExponent Format.binary64 w = 0#_ ↔ scale = 0 := by
    rw [← BitVec.toNat_inj, toNat_unpackExponent]
    rfl
  have hnone : @unpackMantissa Format.binary64 w = 0#_ ↔ w.toNat % 2 ^ 52 = 0 := by
    rw [← BitVec.toNat_inj, toNat_unpackMantissa]
    rfl
  rw [hunpack, hbits]
  simp only [UnpackedFloat.unpack, hones, hzero, hnone, ofBitVec_unpackSign]
  by_cases hinfinite : scale = 0x7FF
  · left
    rw [if_pos hinfinite, if_pos hinfinite]
    refine ⟨rfl, ?_⟩
    split
    · exact .inr ⟨_, rfl⟩
    · exact .inl rfl
  · right
    rw [if_neg hinfinite, if_neg hinfinite]
    by_cases hsmall : scale = 0
    · rw [if_pos hsmall, if_pos hsmall]
      refine ⟨_, rfl, ?_⟩
      split
      · rename_i hmantissa
        exact .inl ⟨rfl, hmantissa⟩
      · refine .inr (exists_finite_eq _ (toNat_unpackMantissa w) ?_ _)
        rw [toNat_unpackExponent]
        change (scale : Int) - 1075 + 1 = -1074
        omega
    · rw [if_neg hsmall, if_neg hsmall]
      refine ⟨_, rfl, .inr (exists_finite_eq _ ?_ ?_ _)⟩
      · rw [BitVec.toNat_append, toNat_unpackMantissa, ← Nat.shiftLeft_add_eq_or_of_lt]
        · rfl
        · exact Nat.mod_lt _ (Nat.two_pow_pos 52)
      · rw [toNat_unpackExponent]
        change (scale : Int) - 1075 = (scale : Int) - 1 + -1074
        omega

theorem mantissa_shiftRight (m : ExtendedMantissa) (k : Nat) :
    (m >>> k).mantissa = m.mantissa / 2 ^ k := by
  induction k generalizing m with
  | zero => simp [HShiftRight.hShiftRight, Nat.repeat]
  | succ k ih =>
    change ((m >>> k).mantissa / 2) = _
    rw [ih, Nat.div_div_eq_div_mul, Nat.pow_succ]

theorem roundToInt_eq_truncate (b : Binary) :
    roundToInt (if b.negative then .negative else .positive) b.mantissa b.exponent =
      b.truncate := by
  have happly : ∀ n : Int, Sign.apply (if b.negative then .negative else .positive) n =
      if b.negative then -n else n := by
    intro n
    split <;> rfl
  unfold roundToInt truncate decreaseExponent shiftToExponent
  simp only [mantissa_shiftRight, ExtendedMantissa.ofMantissaAndAccuracy, happly]
  cases b.exponent with
  | ofNat e => simp [Int.shiftLeft_eq]
  | negSucc e => simp

theorem truncate_of_mantissa_eq_zero {b : Binary} (h : b.mantissa = 0) : b.truncate = 0 := by
  unfold truncate
  rw [h]
  cases b.exponent <;> simp

theorem toNat_ofNatClamp (n : Nat) : (UInt32.ofNatClamp n).toNat = min (2 ^ 32 - 1) n := by
  have hsize : UInt32.size = 2 ^ 32 := rfl
  unfold UInt32.ofNatClamp
  split
  · rw [UInt32.toNat_ofNatLT]
    omega
  · rw [UInt32.toNat_ofNatLT]
    omega

/-- What compares with zero is a number or infinity. -/
theorem unpack_of_nonneg {x : Float} (h : 0.0 ≤ x) :
    x.toModel.unpack ≠ .notANumber ∧ x.toModel.unpack ≠ .infinity .negative := by
  have hzero : (0.0 : Float).toModel.unpack = .zero .positive := by rfl
  have hle : (0.0 : Float).toModel.unpack.le x.toModel.unpack = true := of_decide_eq_true h
  rw [hzero] at hle
  constructor
  · intro hx
    rw [hx] at hle
    cases hle
  · intro hx
    rw [hx] at hle
    cases hle

theorem toNat_toUInt32 {x : Float} (h : 0.0 ≤ x) : x.toUInt32.toNat = saturated x := by
  obtain ⟨hnan, hnegative⟩ := unpack_of_nonneg h
  have hclamp : x.toUInt32.toNat =
      min (2 ^ 32 - 1) (x.toModel.unpack.toInt 0 (UInt32.size - 1)).toNat := toNat_ofNatClamp _
  rw [hclamp, saturated]
  obtain ⟨hnone, hunpack⟩ | ⟨b, hsome, hunpack⟩ := unpack_cases x
  · obtain ⟨sign, hinfinite⟩ := hunpack.resolve_left hnan
    rw [hnone, hinfinite]
    cases sign with
    | negative => exact absurd hinfinite hnegative
    | positive => rfl
  · rw [hsome]
    obtain ⟨hx, hmantissa⟩ | ⟨hpos, hx⟩ := hunpack
    · change _ = min (2 ^ 32 - 1) b.truncate.toNat
      rw [hx, truncate_of_mantissa_eq_zero hmantissa]
      rfl
    · rw [hx, UnpackedFloat.toInt, roundToInt_eq_truncate]

end Binary

end Toolpath
