import Toolpath.Proofs.FirstCode
import Toolpath.Proofs.PlainNumerals
import Toolpath.Proofs.TrailingBlanks

/-!
# Characters of codes and words

Codes and words are made of ASCII letters, digits, points, signs and blanks. Each of these has one
character as its lower-case form, so a text of them loses its code in either case at one place. Only
letters stand for words or lead codes, and numerals and blanks have none.
-/

namespace Toolpath

namespace Text

open Numeral (IsPlain)

theorem isDigit_iff (c : Char) : c.isDigit = true ↔ 48 ≤ c.toNat ∧ c.toNat ≤ 57 := by
  simp only [Char.isDigit, Bool.and_eq_true, decide_eq_true_eq, UInt32.le_iff_toNat_le, ge_iff_le]
  rfl

theorem isAlpha_iff (c : Char) :
    c.isAlpha = true ↔ (65 ≤ c.toNat ∧ c.toNat ≤ 90) ∨ (97 ≤ c.toNat ∧ c.toNat ≤ 122) := by
  simp only [Char.isAlpha, Char.isUpper, Char.isLower, Bool.or_eq_true, Bool.and_eq_true,
    decide_eq_true_eq, UInt32.le_iff_toNat_le, ge_iff_le]
  rfl

/-- A character that is a form of its own in lower case, up to ASCII capitals. -/
def IsSimple (c : Char) : Prop := c ≠ 'Σ' ∧ c ≠ ';' ∧ lowerChar c = [c.toLower]

theorem isSimple_of_ascii {c : Char} (h : c.toNat < 0x80) (hc : c ≠ ';') : IsSimple c := by
  refine ⟨?_, hc, lowerChar_of_ascii h⟩
  rintro rfl
  exact absurd h (by decide)

theorem isSimple_of_isBlank {b : Char} (h : isBlank b = true) : IsSimple b := by
  refine ⟨ne_of_isBlank h (by decide), ne_of_isBlank h (by decide), ?_⟩
  rw [lowerChar_of_isBlank h, toLower_of_not_isAlpha (isAlpha_of_isBlank h)]

/-- Neither letters nor separators: what can stand behind a letter. -/
structure IsNumeric (c : Char) : Prop where
  simple : IsSimple c
  not_alpha : c.isAlpha = false

theorem isNumeric_of_isBlank {b : Char} (h : isBlank b = true) : IsNumeric b :=
  ⟨isSimple_of_isBlank h, isAlpha_of_isBlank h⟩

theorem isNumeric_of_isDigit {c : Char} (h : c.isDigit = true) : IsNumeric c := by
  have hrange := (isDigit_iff c).1 h
  refine ⟨isSimple_of_ascii (by omega) ?_, ?_⟩
  · rintro rfl
    cases h
  · rw [Bool.eq_false_iff, ne_eq, isAlpha_iff]
    omega

theorem isNumeric_of_mem_plain {s : List Char} (h : IsPlain s) : ∀ c ∈ s, IsNumeric c := by
  have hunsigned : ∀ c : Char, c.isDigit = true ∨ c = '.' → IsNumeric c := by
    rintro c (hdigit | rfl)
    · exact isNumeric_of_isDigit hdigit
    · exact ⟨isSimple_of_ascii (by decide) (by decide), by decide⟩
  intro c hc
  cases h with
  | unsigned h => exact hunsigned c (h.of_mem c hc)
  | signed hsign h =>
    obtain rfl | hc := List.mem_cons.1 hc
    · obtain rfl | rfl := hsign <;>
        exact ⟨isSimple_of_ascii (by decide) (by decide), by decide⟩
    · exact hunsigned c (h.of_mem c hc)

theorem isSimple_of_isAlpha {c : Char} (h : c.isAlpha = true) : IsSimple c := by
  have hrange := (isAlpha_iff c).1 h
  refine isSimple_of_ascii (by omega) ?_
  rintro rfl
  cases h

theorem isAlpha_of_isLead {c : Char} (h : Command.isLead c = true) : c.isAlpha = true := by
  simp only [Command.isLead, Command.isUpperLead, Command.isLowerLead, Bool.or_eq_true,
    beq_iff_eq] at h
  obtain (rfl | rfl) | (rfl | rfl) := h <;> decide

theorem IsNumeric.ne_of_isAlpha {c d : Char} (h : IsNumeric d) (hc : c.isAlpha = true) : d ≠ c := by
  rintro rfl
  rw [h.not_alpha] at hc
  cases hc

theorem IsNumeric.not_lead {c : Char} (h : IsNumeric c) : Command.isLead c = false := by
  rw [Bool.eq_false_iff]
  exact fun hlead => h.ne_of_isAlpha (isAlpha_of_isLead hlead) rfl

theorem map_toLower_of_numeric {s : List Char} (h : ∀ c ∈ s, IsNumeric c) :
    s.map Char.toLower = s := by
  have hsame : ∀ c ∈ s, c.toLower = c := fun c hc => toLower_of_not_isAlpha (h c hc).not_alpha
  rw [List.map_congr_left hsame, List.map_id']

section Lower

variable {s : List Char} (h : ∀ c ∈ s, IsSimple c)
include h

theorem lowerForms_of_isSimple : lowerForms s = s.map fun c => [c.toLower] := by
  have hafter : ∀ before, lowerFormsAfter before s = s.map fun c => [c.toLower] := by
    induction s with
    | nil => exact fun _ => rfl
    | cons c s ih =>
      intro before
      obtain ⟨hsigma, -, hlower⟩ := h c List.mem_cons_self
      rw [lowerFormsAfter, if_neg hsigma, hlower, List.map_cons,
        ih fun d hd => h d (List.mem_cons_of_mem _ hd)]
  exact hafter []

theorem argumentText_of_isSimple : Command.argumentText s =
    match Command.splitCode? Command.isLead s with
    | some (before, _, after) => (before ++ after).map Char.toLower
    | none => s.map Char.toLower := by
  have hflatten : ∀ t : List Char, (t.map fun c => [c.toLower]).flatten = t.map Char.toLower :=
    fun t => by rw [← List.flatMap_def, List.map_eq_flatMap]
  have hforms := lowerForms_of_isSimple h
  rw [Command.argumentText, Command.splitCode?_lower, hforms]
  cases hsplit : Command.splitCode? Command.isLead s with
  | none =>
    rw [← flatten_lowerForms, hforms]
    exact hflatten s
  | some split =>
    obtain ⟨before, code, after⟩ := split
    have hparts : s = before ++ code ++ after := Command.eq_append_of_splitCode? hsplit
    have hlength : before.length + code.length = (before ++ code).length := by simp
    simp only [Option.map_some, ← List.map_take, ← List.map_drop, hflatten, hlength]
    rw [hparts, List.drop_left, List.append_assoc, List.take_left, List.map_append]

end Lower

end Text

end Toolpath
