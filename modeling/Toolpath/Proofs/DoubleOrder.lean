import Toolpath.Proofs.Rounding

/-!
# The order of doubles

Doubles other than NaN are compared as the numbers that they are, with the infinities at both ends.
Exponents count before mantissas, which is right because a double of a greater exponent has a
mantissa of full length. NaN is in no relation to any double, itself included.
-/

namespace Toolpath

open Float.Model Float.Model.UnpackedFloat

namespace Binary

/-- The number that an unpacked double is. NaN has no use for the zero that stands here. -/
def numberOf : UnpackedFloat → WithBot (WithTop ℚ)
  | .infinity .negative => ⊥
  | .infinity .positive => ((⊤ : WithTop ℚ) : WithBot (WithTop ℚ))
  | .zero _ | .notANumber => ((0 : ℚ) : WithTop ℚ)
  | .finite .negative m e _ => ((-(m * 2 ^ e) : ℚ) : WithTop ℚ)
  | .finite .positive m e _ => ((m * 2 ^ e : ℚ) : WithTop ℚ)

def number (x : Float) : WithBot (WithTop ℚ) := numberOf x.toModel.unpack

/-- Exponents first, and then mantissas, is the order of sizes. -/
theorem IsCanonical.compare_eq {b b' : Binary} (h : b.IsCanonical) (h' : b'.IsCanonical) :
    (compare b.exponent b'.exponent).then (compare b.mantissa b'.mantissa) =
      compare b.magnitude b'.magnitude := by
  obtain hlt | heq | hlt := lt_trichotomy b.exponent b'.exponent
  · rw [compare_lt_iff_lt.2 hlt, compare_lt_iff_lt.2 (h.magnitude_lt_of_exponent_lt h' hlt)]
    rfl
  · have hunit : (0 : ℚ) < 2 ^ b'.exponent := by positivity
    rw [compare_eq_iff_eq.2 heq, magnitude, magnitude, heq, ← cmp_eq_compare (_ * _),
      cmp_mul_pos_right hunit, Nat.strictMono_cast.cmp_map_eq, cmp_eq_compare]
    rfl
  · rw [compare_gt_iff_gt.2 hlt, compare_gt_iff_gt.2 (h'.magnitude_lt_of_exponent_lt h hlt)]
    rfl

section Rationals

variable {p q : ℚ}

theorem compare_coe (p q : ℚ) :
    compare ((p : WithTop ℚ) : WithBot (WithTop ℚ)) ((q : WithTop ℚ) : WithBot (WithTop ℚ)) =
      compare p q := by
  have hmono : StrictMono fun p : ℚ => ((p : WithTop ℚ) : WithBot (WithTop ℚ)) :=
    WithBot.coe_strictMono.comp WithTop.coe_strictMono
  rw [← cmp_eq_compare, ← cmp_eq_compare, hmono.cmp_map_eq]

theorem compare_coe_of_lt (h : p < q) :
    compare ((p : WithTop ℚ) : WithBot (WithTop ℚ)) ((q : WithTop ℚ) : WithBot (WithTop ℚ)) =
      .lt := by
  rw [compare_coe, compare_lt_iff_lt.2 h]

theorem compare_coe_of_gt (h : q < p) :
    compare ((p : WithTop ℚ) : WithBot (WithTop ℚ)) ((q : WithTop ℚ) : WithBot (WithTop ℚ)) =
      .gt := by
  rw [compare_coe, compare_gt_iff_gt.2 h]

theorem swap_compare (p q : ℚ) : (compare p q).swap = compare (-p) (-q) := by
  have hneg : StrictAnti fun p : ℚ => -p := fun p q h => neg_lt_neg h
  rw [← cmp_eq_compare, ← cmp_eq_compare, hneg.cmp_map_eq, cmp_swap]

end Rationals

/-- Unpacked doubles are compared as numbers. -/
theorem compare_unpacked {f g : UnpackedFloat}
    (hf : ∀ {sign m e h}, f = .finite sign m e h → IsCanonical ⟨false, m, e⟩)
    (hg : ∀ {sign m e h}, g = .finite sign m e h → IsCanonical ⟨false, m, e⟩)
    (hfnan : f.isNaN = false) (hgnan : g.isNaN = false) :
    f.compare g = some (compare (numberOf f) (numberOf g)) := by
  have hpos : ∀ {m : ℕ} (e : ℤ), 0 < m → (0 : ℚ) < m * 2 ^ e :=
    fun e hm => mul_pos (Nat.cast_pos.2 hm) (by positivity)
  cases f with
  | notANumber => cases hfnan
  | infinity s =>
    cases g with
    | notANumber => cases hgnan
    | infinity t | zero t | finite t => cases s <;> cases t <;> rfl
  | zero s =>
    cases g with
    | notANumber => cases hgnan
    | infinity t => cases t <;> rfl
    | zero t => rfl
    | finite t m e h =>
      cases t with
      | negative => exact congrArg some (compare_coe_of_gt (neg_neg_of_pos (hpos e h))).symm
      | positive => exact congrArg some (compare_coe_of_lt (hpos e h)).symm
  | finite s m e h =>
    cases g with
    | notANumber => cases hgnan
    | infinity t => cases s <;> cases t <;> rfl
    | zero t =>
      cases s with
      | negative => exact congrArg some (compare_coe_of_lt (neg_neg_of_pos (hpos e h))).symm
      | positive => exact congrArg some (compare_coe_of_gt (hpos e h)).symm
    | finite t m' e' h' =>
      have hsizes : (compare e e').then (compare m m') =
          compare (m * 2 ^ e : ℚ) (m' * 2 ^ e') := (hf rfl).compare_eq (hg rfl)
      cases s with
      | negative =>
        cases t with
        | negative =>
          rw [UnpackedFloat.compare, hsizes, swap_compare, numberOf, numberOf, compare_coe]
        | positive =>
          have hlt := (neg_neg_of_pos (hpos e h)).trans (hpos e' h')
          exact congrArg some (compare_coe_of_lt hlt).symm
      | positive =>
        cases t with
        | negative =>
          have hlt := (neg_neg_of_pos (hpos e' h')).trans (hpos e h)
          exact congrArg some (compare_coe_of_gt hlt).symm
        | positive => rw [UnpackedFloat.compare, hsizes, numberOf, numberOf, compare_coe]

theorem isCanonical_of_unpack {x : Float} {sign : Sign} {m : ℕ} {e : ℤ} {h : 0 < m}
    (hx : x.toModel.unpack = .finite sign m e h) : IsCanonical ⟨false, m, e⟩ := by
  obtain ⟨-, hnan | ⟨_, hinfinite⟩⟩ | ⟨b, hb, ⟨hzero, -⟩ | ⟨_, hfinite⟩⟩ := unpack_cases x
  · rw [hnan] at hx
    cases hx
  · rw [hinfinite] at hx
    cases hx
  · rw [hzero] at hx
    cases hx
  · rw [hfinite] at hx
    obtain ⟨-, rfl, rfl⟩ := UnpackedFloat.finite.inj hx
    obtain ⟨hmantissa, hleast, hgreatest, hleading⟩ := isCanonical_of_ofFloat? hb
    exact ⟨hmantissa, hleast, hgreatest, hleading⟩

section Comparisons

variable {x y : Float}

theorem compare_unpack (hx : x.isNaN = false) (hy : y.isNaN = false) :
    x.toModel.unpack.compare y.toModel.unpack = some (compare (number x) (number y)) :=
  compare_unpacked isCanonical_of_unpack isCanonical_of_unpack hx hy

/-- NaN is compared with nothing. -/
theorem compare_unpack_of_isNaN (h : ¬ (x.isNaN = false ∧ y.isNaN = false)) :
    x.toModel.unpack.compare y.toModel.unpack = none := by
  have hx : x.isNaN = x.toModel.unpack.isNaN := rfl
  have hy : y.isNaN = y.toModel.unpack.isNaN := rfl
  rw [hx, hy] at h
  cases hxu : x.toModel.unpack with
  | notANumber => rfl
  | infinity s | zero s | finite s =>
    cases hyu : y.toModel.unpack with
    | notANumber => cases s <;> rfl
    | infinity | zero | finite =>
      rw [hxu, hyu] at h
      exact absurd ⟨rfl, rfl⟩ h

protected theorem le_iff : x ≤ y ↔ x.isNaN = false ∧ y.isNaN = false ∧ number x ≤ number y := by
  have hle : x ≤ y ↔ (x.toModel.unpack.compare y.toModel.unpack).any (·.isLE) = true :=
    decide_eq_true_iff
  rw [hle, ← and_assoc]
  by_cases h : x.isNaN = false ∧ y.isNaN = false
  · rw [compare_unpack h.1 h.2, Option.any_some, Ordering.isLE_iff_ne_gt, ← ne_eq,
      compare_le_iff_le]
    exact (and_iff_right h).symm
  · rw [compare_unpack_of_isNaN h]
    exact ⟨fun hnone => (nomatch hnone), fun hnumbers => absurd hnumbers.1 h⟩

protected theorem lt_iff : x < y ↔ x.isNaN = false ∧ y.isNaN = false ∧ number x < number y := by
  have hlt : x < y ↔ (x.toModel.unpack.compare y.toModel.unpack == some .lt) = true :=
    decide_eq_true_iff
  rw [hlt, ← and_assoc, beq_iff_eq]
  by_cases h : x.isNaN = false ∧ y.isNaN = false
  · rw [compare_unpack h.1 h.2, Option.some_inj, compare_lt_iff_lt]
    exact (and_iff_right h).symm
  · rw [compare_unpack_of_isNaN h]
    exact ⟨fun hnone => (nomatch hnone), fun hnumbers => absurd hnumbers.1 h⟩

protected theorem le_self (h : x.isNaN = false) : x ≤ x := Binary.le_iff.2 ⟨h, h, le_rfl⟩

protected theorem le_trans {z : Float} (hxy : x ≤ y) (hyz : y ≤ z) : x ≤ z := by
  obtain ⟨hx, -, hxy⟩ := Binary.le_iff.1 hxy
  obtain ⟨-, hz, hyz⟩ := Binary.le_iff.1 hyz
  exact Binary.le_iff.2 ⟨hx, hz, hxy.trans hyz⟩

protected theorem le_of_lt (h : x < y) : x ≤ y := by
  obtain ⟨hx, hy, hlt⟩ := Binary.lt_iff.1 h
  exact Binary.le_iff.2 ⟨hx, hy, hlt.le⟩

protected theorem le_of_not_lt (hx : x.isNaN = false) (hy : y.isNaN = false) (h : ¬ y < x) :
    x ≤ y :=
  Binary.le_iff.2 ⟨hx, hy, not_lt.1 fun hlt => h (Binary.lt_iff.2 ⟨hy, hx, hlt⟩)⟩

end Comparisons

end Binary

end Toolpath
