import Toolpath.Proofs.CommentTags
import Toolpath.Proofs.JsonLines
import Toolpath.Proofs.WordScan
import Toolpath.Report

/-!
# Finite and infinite numbers

A tag with a number that is infinite or NaN is a text, so that all numbers of tags are finite. Words
are not looked at in this way. They are never NaN, but a numeral half a unit above the greatest
double is infinite, and an infinite number is written as `null`. It takes more than 308 characters
to write one.
-/

namespace Toolpath

namespace Binary

theorem isFinite_eq (x : Float) : x.isFinite = (ofFloat? x).isSome := by
  have hmodel : x.isFinite = x.toModel.unpack.isFinite := rfl
  rw [hmodel]
  obtain ⟨hnone, hunpack | ⟨sign, hunpack⟩⟩ | ⟨b, hsome, ⟨hunpack, -⟩ | ⟨_, hunpack⟩⟩ :=
    unpack_cases x
  · rw [hnone, hunpack]
    rfl
  · rw [hnone, hunpack]
    rfl
  · rw [hsome, hunpack]
    rfl
  · rw [hsome, hunpack]
    rfl

theorem isNaN_of_isFinite {x : Float} (h : x.isFinite = true) : x.isNaN = false := by
  have hmodel : x.isNaN = x.toModel.unpack.isNaN := rfl
  have hfinite : x.toModel.unpack.isFinite = true := h
  rw [hmodel]
  cases hunpack : x.toModel.unpack with
  | notANumber =>
    rw [hunpack] at hfinite
    cases hfinite
  | infinity | zero | finite => rfl

variable {negative : Bool} {q : ℚ} {x : Float}

theorem RoundsTo.isFinite_iff (h : RoundsTo negative q x) : x.isFinite = true ↔ q < overflow := by
  by_cases hq : q < overflow
  · rw [RoundsTo, if_pos hq] at h
    obtain ⟨b, hb, -⟩ := h
    simp only [isFinite_eq, hb, hq, Option.isSome_some]
  · rw [RoundsTo, if_neg hq] at h
    have hinfinite : x.isFinite = false := by
      rw [h]
      cases negative <;> decide +kernel
    simp only [hinfinite, hq, Bool.false_eq_true]

theorem RoundsTo.eq_infinity (h : RoundsTo negative q x) (hx : x.isFinite = false) :
    x = if negative then -infinity else infinity := by
  have hq : ¬ q < overflow := by
    rw [← h.isFinite_iff, hx]
    decide
  rwa [RoundsTo, if_neg hq] at h

theorem RoundsTo.isNaN (h : RoundsTo negative q x) : x.isNaN = false := by
  cases hx : x.isFinite with
  | true => exact isNaN_of_isFinite hx
  | false =>
    rw [h.eq_infinity hx]
    cases negative <;> decide +kernel

end Binary

namespace Numeral

theorem ofDigitChars_lt {digits : List Char} (h : ∀ d ∈ digits, d.isDigit = true) (n : ℕ) :
    Nat.ofDigitChars 10 digits n < (n + 1) * 10 ^ digits.length := by
  induction digits generalizing n with
  | nil => simp
  | cons d digits ih =>
    rw [List.forall_mem_cons, Text.isDigit_iff] at h
    have hdigit : d.toNat - '0'.toNat ≤ 9 := by
      have hzero : '0'.toNat = 0x30 := rfl
      omega
    calc Nat.ofDigitChars 10 (d :: digits) n
        < (10 * n + (d.toNat - '0'.toNat) + 1) * 10 ^ digits.length := by
          rw [Nat.ofDigitChars_cons]
          exact ih h.2 _
      _ ≤ ((n + 1) * 10) * 10 ^ digits.length := by
          gcongr
          omega
      _ = (n + 1) * 10 ^ (digits.length + 1) := by ring

theorem magnitude_spelled_lt (s : List Char) : (spelled s).magnitude < 10 ^ s.length := by
  have hdigits : ∀ d ∈ s.filter Char.isDigit, d.isDigit = true :=
    fun d hd => (List.mem_filter.1 hd).2
  have hvalue : (spelled s).digits < 10 ^ s.length := by
    calc (spelled s).digits < (0 + 1) * 10 ^ (s.filter Char.isDigit).length :=
          ofDigitChars_lt hdigits 0
      _ = 10 ^ (s.filter Char.isDigit).length := one_mul _
      _ ≤ 10 ^ s.length := Nat.pow_le_pow_right (by decide) (List.length_filter_le _ s)
  have hexponent : (10 : ℚ) ^ (spelled s).exponent ≤ 1 :=
    zpow_le_one_of_nonpos₀ (by norm_num) (Int.neg_nonpos_of_nonneg (Int.natCast_nonneg _))
  calc (spelled s).magnitude ≤ (spelled s).digits * 1 := by
        rw [magnitude]
        gcongr
    _ = (spelled s).digits := mul_one _
    _ < 10 ^ s.length := by exact_mod_cast hvalue

theorem ten_pow_le_overflow : (10 : ℚ) ^ 308 ≤ Binary.overflow := by
  have hgreatest : Binary.greatestExponent = ((971 : ℕ) : ℤ) := rfl
  have hnat : 10 ^ 308 ≤ (2 ^ 53 - 1) * 2 ^ 971 := by decide +kernel
  have hcast : ((10 ^ 308 : ℕ) : ℚ) ≤ ((2 ^ 53 - 1) * 2 ^ 971 : ℕ) := Nat.cast_le.2 hnat
  calc (10 : ℚ) ^ 308 = ((10 ^ 308 : ℕ) : ℚ) := by rw [Nat.cast_pow, Nat.cast_ofNat]
    _ ≤ ((2 ^ 53 - 1) * 2 ^ 971 : ℕ) := hcast
    _ = (2 ^ 53 - 1) * 2 ^ 971 := by
      rw [Nat.cast_mul, Nat.cast_pow, Nat.cast_ofNat]
      norm_num only
    _ ≤ Binary.overflow := by
      rw [Binary.overflow, hgreatest, zpow_natCast]
      gcongr
      norm_num

/-- No numeral of at most 308 characters is too large for a double. -/
theorem lt_overflow_of_length_le {s : List Char} (h : s.length ≤ 308) :
    (spelled s).magnitude < Binary.overflow := by
  calc (spelled s).magnitude < 10 ^ s.length := magnitude_spelled_lt s
    _ ≤ 10 ^ 308 := pow_le_pow_right₀ (by norm_num) h
    _ ≤ Binary.overflow := ten_pow_le_overflow

end Numeral

namespace Json

theorem compact_float_eq_null_iff (x : Float) :
    (float x).compact = "null".toList ↔ x.isFinite = false := by
  have hcompact : (float x).compact = (floatText? x).getD "null".toList := rfl
  rw [hcompact, Binary.isFinite_eq]
  cases htext : floatText? x with
  | none =>
    rw [floatText?, Option.map_eq_none_iff] at htext
    simp [htext]
  | some text =>
    have hsome : (Binary.ofFloat? x).isSome = true := by
      rw [floatText?] at htext
      rw [← Option.isSome_map, htext]
      rfl
    have hne : text ≠ "null".toList := by
      rintro rfl
      have hn := isNumeralChar_of_floatText? htext 'n' (by decide)
      revert hn
      decide
    rw [Option.getD_some, hsome]
    exact ⟨fun h => absurd h hne, fun h => nomatch h⟩

end Json

namespace Record

open Numeral (IsPlain spelled)
open Text (IsFirstMatch)
open Words (IsSpelled)

theorem isFinite_of_tag {line key : String} {x : Float}
    (h : (ofLine line).tags[key]? = some (.number x)) : x.isFinite = true := by
  rw [ofLine, ofText_tags] at h
  cases hcomment : (splitComment line.toList).2 with
  | none => simp [hcomment] at h
  | some comment =>
    rw [hcomment] at h
    exact (Tags.isNormal_ofComment comment).number key x h

theorem compact_tag_ne_null {line key : String} {value : TagValue}
    (h : (ofLine line).tags[key]? = some value) : value.toJson.compact ≠ "null".toList := by
  cases value with
  | number x =>
    rw [TagValue.toJson, ne_eq, Json.compact_float_eq_null_iff, isFinite_of_tag h]
    decide
  | text s =>
    have hquoted : (Json.text s).compact = Json.quoted s := rfl
    rw [TagValue.toJson, hquoted, Json.quoted]
    intro hnull
    exact absurd (List.cons.inj hnull).1 (by decide)

/-- The numbers of tags are finite and written as such. The numbers of words are never NaN. Each is
infinite, and written as `null`, if and only if the numeral that it is read from reaches half a unit
above the greatest double, for which it needs more than 308 characters. -/
theorem words_finite_below_overflow (line : String) :
    (∀ (key : String) (value : TagValue), (ofLine line).tags[key]? = some value →
      (∀ x, value = .number x → x.isFinite = true) ∧ value.toJson.compact ≠ "null".toList) ∧
    ∃ text, IsArgumentText (instructionOf line) text ∧
      ∀ c x, (ofLine line).words[c]? = some (.number x) →
        x.isNaN = false ∧
        ∃ before gap numeral after,
          IsFirstMatch (IsSpelled c) text before (c :: (gap ++ numeral)) after ∧
          (∀ b ∈ gap, Text.isBlank b = true) ∧ IsPlain numeral ∧
          (x.isFinite = true ↔ (spelled numeral).magnitude < Binary.overflow) ∧
          (x.isFinite = false → x = if (spelled numeral).negative then -infinity else infinity) ∧
          ((Word.number x).toJson.compact = "null".toList ↔ x.isFinite = false) ∧
          (numeral.length ≤ 308 → x.isFinite = true) := by
  refine ⟨?_, _, isArgumentText (instructionOf line), ?_⟩
  · intro key value hvalue
    refine ⟨?_, compact_tag_ne_null hvalue⟩
    rintro x rfl
    exact isFinite_of_tag hvalue
  · intro c x hx
    rw [words_ofLine, Words.getElem?_ofText] at hx
    obtain ⟨-, hword⟩ := Option.ite_none_right_eq_some.1 hx
    obtain ⟨before, gap, numeral, after, hfirst, hgap, hnumeral, hreads⟩ :=
      Words.wordOf?_eq_number_iff.1 hword
    have hfinite := hreads.rounds.isFinite_iff
    exact ⟨hreads.rounds.isNaN, before, gap, numeral, after, hfirst, hgap, hnumeral, hfinite,
      hreads.rounds.eq_infinity, Json.compact_float_eq_null_iff x,
      fun hlength => hfinite.2 (Numeral.lt_overflow_of_length_le hlength)⟩

/-- A numeral of 310 digits is infinite, and `null` stands for it. -/
theorem infinite_word :
    let line := String.ofList ("G1 X1".toList ++ List.replicate 309 '0')
    (ofLine line).words['x']? = some (.number infinity) ∧ infinity.isFinite = false ∧
      String.ofList (ofLine line).toJson.compact =
        "\x7b\"command\":\"G1\",\"args\":\x7b\"x\":null\x7d,\"comment\":null,\"tag\":\x7b\x7d\x7d" := by
  intro line
  have hrecord : ofLine line =
      { command := some .linear, words := Std.ExtTreeMap.ofList [('x', Word.number infinity)] } := by
    rw [ofLine, String.toList_ofList]
    decide +kernel
  rw [hrecord]
  decide +kernel

end Record

end Toolpath
