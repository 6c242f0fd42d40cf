import Mathlib
import Toolpath.Record.OfLine

/-!
# Letter case of a line

A line says the same whether its ASCII letters are small or capital. The texts of a line are
compared with their lower-case forms here, so that two lines that differ in case alone are compared
with one and the same. Only the comment keeps the letters as they are written.
-/

namespace Toolpath

namespace Text

theorem toLower_of_not_ascii {c : Char} (h : 0x80 ≤ c.toNat) : c.toLower = c := by
  apply Char.toLower_eq_of_not_isUpper
  intro hupper
  have hle : c.toNat ≤ 90 := UInt32.le_iff_toNat_le.1 (of_decide_eq_true hupper).2
  omega

theorem exists_capital {c : Char} (h : c.isUpper = true) : ∃ n < 26, c = Char.ofNat (0x41 + n) := by
  simp only [Char.isUpper, decide_eq_true_eq, UInt32.le_iff_toNat_le] at h
  have hlow : 65 ≤ c.toNat := h.1
  have hhigh : c.toNat ≤ 90 := h.2
  refine ⟨c.toNat - 0x41, by omega, ?_⟩
  rw [Nat.add_sub_cancel' hlow, Char.ofNat_toNat]

/-- What does not tell the 26 capitals from their small letters is blind to the case. -/
theorem eq_of_capitals {α : Type} {f : Char → α}
    (h : ∀ n < 26, f (Char.ofNat (0x41 + n)).toLower = f (Char.ofNat (0x41 + n))) (c : Char) :
    f c.toLower = f c := by
  cases hc : c.isUpper with
  | true =>
    obtain ⟨n, hn, rfl⟩ := exists_capital hc
    exact h n hn
  | false => rw [Char.toLower_eq_of_not_isUpper (by simp [hc])]

theorem inRanges_filter (ranges : List (Nat × Nat)) {n bound : Nat} (h : n < bound) :
    inRanges (ranges.filter fun r => r.1 < bound) n = inRanges ranges n := by
  unfold inRanges
  rw [List.any_filter]
  congr
  funext r
  by_cases hr : r.1 < bound
  · simp [hr]
  · have : ¬ r.1 ≤ n := by omega
    simp [hr, this]

def asciiIgnorableRanges : List (Nat × Nat) :=
  [(0x27, 0x27), (0x2E, 0x2E), (0x3A, 0x3A), (0x5E, 0x5E), (0x60, 0x60)]

theorem isCaseIgnorable_of_ascii {c : Char} (h : c.toNat < 0x80) :
    isCaseIgnorable c = inRanges asciiIgnorableRanges c.toNat := by
  have hranges : caseIgnorableRanges.filter (fun r => r.1 < 0x80) = asciiIgnorableRanges := by
    decide +kernel
  rw [isCaseIgnorable, ← inRanges_filter _ h, hranges]

/-- What the scans of a line ask of a character. -/
structure Traits where
  isAscii : Bool
  isBlank : Bool
  isDigit : Bool
  isExponentMark : Bool
  isCased : Bool
  isAsciiIgnorable : Bool
  lower : List Char
  upper : List Char
deriving DecidableEq

def Traits.ofChar (c : Char) : Traits where
  isAscii := c.toNat < 0x80
  isBlank := Text.isBlank c
  isDigit := c.isDigit
  isExponentMark := c == 'e' || c == 'E'
  isCased := Text.isCased c
  isAsciiIgnorable := inRanges asciiIgnorableRanges c.toNat
  lower := lowerChar c
  upper := upperChar c

theorem Traits.ofChar_toLower : ∀ c, ofChar c.toLower = ofChar c :=
  eq_of_capitals (by decide +kernel)

section Traits

variable (c : Char)

theorem isBlank_toLower : isBlank c.toLower = isBlank c :=
  congrArg Traits.isBlank (Traits.ofChar_toLower c)

theorem isDigit_toLower : c.toLower.isDigit = c.isDigit :=
  congrArg Traits.isDigit (Traits.ofChar_toLower c)

theorem isExponentMark_toLower :
    (c.toLower == 'e' || c.toLower == 'E') = (c == 'e' || c == 'E') :=
  congrArg Traits.isExponentMark (Traits.ofChar_toLower c)

theorem isCased_toLower : isCased c.toLower = isCased c :=
  congrArg Traits.isCased (Traits.ofChar_toLower c)

theorem isCaseIgnorable_toLower : isCaseIgnorable c.toLower = isCaseIgnorable c := by
  by_cases h : c.toNat < 0x80
  · have hascii : decide (c.toLower.toNat < 0x80) = decide (c.toNat < 0x80) :=
      congrArg Traits.isAscii (Traits.ofChar_toLower c)
    have hlower : c.toLower.toNat < 0x80 := (decide_eq_decide.1 hascii).2 h
    rw [isCaseIgnorable_of_ascii h, isCaseIgnorable_of_ascii hlower]
    exact congrArg Traits.isAsciiIgnorable (Traits.ofChar_toLower c)
  · rw [toLower_of_not_ascii (Nat.le_of_not_lt h)]

theorem lowerChar_toLower : lowerChar c.toLower = lowerChar c :=
  congrArg Traits.lower (Traits.ofChar_toLower c)

theorem upperChar_toLower : upperChar c.toLower = upperChar c :=
  congrArg Traits.upper (Traits.ofChar_toLower c)

end Traits

theorem toLower_of_not_isAlpha {c : Char} (h : c.isAlpha = false) : c.toLower = c := by
  rw [Char.isAlpha, Bool.or_eq_false_iff] at h
  exact Char.toLower_eq_of_not_isUpper (by simp [h.1])

/-- A character that is no letter is the lower-case form of itself alone. -/
theorem toLower_eq_iff {x c : Char} (hx : x.isAlpha = false) : c.toLower = x ↔ c = x := by
  constructor
  · rintro rfl
    rw [Char.isAlpha_toLower_eq_isAlpha] at hx
    exact (toLower_of_not_isAlpha hx).symm
  · rintro rfl
    exact toLower_of_not_isAlpha hx

/-- Digits have no case. -/
theorem map_toLower_of_digits {s : List Char} (h : s.all Char.isDigit = true) :
    s.map Char.toLower = s := by
  have hdigit : ∀ c ∈ s, c.toLower = c := by
    intro c hc
    have hc : c.isDigit = true := List.all_eq_true.1 h c hc
    rw [Char.isDigit, Bool.and_eq_true, decide_eq_true_eq, decide_eq_true_eq] at hc
    apply Char.toLower_eq_of_not_isUpper
    intro hupper
    exact absurd (Char.le_trans (of_decide_eq_true hupper).1 hc.2) (by decide)
  rw [List.map_congr_left hdigit, List.map_id']

section Lists

variable (s : List Char)

theorem dropWhile_map_toLower {p : Char → Bool} (hp : ∀ c, p c.toLower = p c) :
    (s.map Char.toLower).dropWhile p = (s.dropWhile p).map Char.toLower := by
  have hsame : p ∘ Char.toLower = p := funext hp
  rw [List.dropWhile_map, hsame]

theorem takeWhile_map_toLower {p : Char → Bool} (hp : ∀ c, p c.toLower = p c) :
    (s.map Char.toLower).takeWhile p = (s.takeWhile p).map Char.toLower := by
  have hsame : p ∘ Char.toLower = p := funext hp
  rw [List.takeWhile_map, hsame]

theorem trimEnd_map_toLower : trimEnd (s.map Char.toLower) = (trimEnd s).map Char.toLower := by
  rw [trimEnd, trimEnd, ← List.map_reverse, dropWhile_map_toLower _ isBlank_toLower,
    List.map_reverse]

theorem trim_map_toLower : trim (s.map Char.toLower) = (trim s).map Char.toLower := by
  rw [trim, trim, trimStart, trimStart, dropWhile_map_toLower s isBlank_toLower,
    trimEnd_map_toLower]

theorem upper_map_toLower : upper (s.map Char.toLower) = upper s := by
  rw [upper, upper, List.flatMap_map]
  simp only [upperChar_toLower]

theorem meetsCased_map_toLower : meetsCased (s.map Char.toLower) = meetsCased s := by
  rw [meetsCased, meetsCased, dropWhile_map_toLower s isCaseIgnorable_toLower]
  cases s.dropWhile isCaseIgnorable with
  | nil => rfl
  | cons c rest => exact isCased_toLower c

theorem lowerAfter_map_toLower (before : List Char) :
    lowerAfter (before.map Char.toLower) (s.map Char.toLower) = lowerAfter before s := by
  induction s generalizing before with
  | nil => rfl
  | cons c rest ih =>
    have hsigma : c.toLower = 'Σ' ↔ c = 'Σ' := toLower_eq_iff (by decide)
    have hrest := ih (c :: before)
    rw [List.map_cons] at hrest
    simp only [List.map_cons, lowerAfter, hsigma, sigmaForm, meetsCased_map_toLower,
      lowerChar_toLower, hrest]

theorem lower_map_toLower : lower (s.map Char.toLower) = lower s := lowerAfter_map_toLower s []

theorem splitFirst?_map_toLower {sep : Char} (hsep : sep.isAlpha = false) :
    splitFirst? sep (s.map Char.toLower) =
      (splitFirst? sep s).map fun p => (p.1.map Char.toLower, p.2.map Char.toLower) := by
  induction s with
  | nil => rfl
  | cons c rest ih =>
    by_cases h : c = sep
    · rw [List.map_cons, (toLower_eq_iff hsep).2 h, h, splitFirst?_cons_self, splitFirst?_cons_self]
      rfl
    · have hlower : c.toLower ≠ sep := fun e => h ((toLower_eq_iff hsep).1 e)
      rw [List.map_cons, splitFirst?_cons_of_ne _ hlower, splitFirst?_cons_of_ne _ h, ih,
        Option.map_map, Option.map_map]
      rfl

theorem splitOn_map_toLower {sep : Char} (hsep : sep.isAlpha = false) :
    (s.map Char.toLower).splitOn sep = (s.splitOn sep).map (List.map Char.toLower) := by
  induction s with
  | nil => rfl
  | cons c rest ih =>
    rw [List.map_cons, List.splitOn_cons_eq_if_modifyHead, List.splitOn_cons_eq_if_modifyHead, ih]
    by_cases h : c = sep
    · rw [if_pos (by simpa using (toLower_eq_iff hsep).2 h), if_pos (by simpa using h)]
      rfl
    · have hlower : c.toLower ≠ sep := fun e => h ((toLower_eq_iff hsep).1 e)
      rw [if_neg (by simpa using hlower), if_neg (by simpa using h)]
      cases rest.splitOn sep <;> rfl

end Lists

end Text

namespace Numeral

open Text (toLower_eq_iff isDigit_toLower map_toLower_of_digits dropWhile_map_toLower
  takeWhile_map_toLower)

section Lower

variable (s : List Char)

theorem splitSign_map_toLower :
    splitSign (s.map Char.toLower) = ((splitSign s).1, (splitSign s).2.map Char.toLower) := by
  cases s with
  | nil => rfl
  | cons c rest =>
    have hminus : c.toLower = '-' ↔ c = '-' := toLower_eq_iff (by decide)
    have hplus : c.toLower = '+' ↔ c = '+' := toLower_eq_iff (by decide)
    by_cases h : c = '-'
    · subst h
      rfl
    by_cases h' : c = '+'
    · subst h'
      rfl
    rw [List.map_cons, splitSign_cons_of_ne _ (mt hminus.1 h) (mt hplus.1 h'),
      splitSign_cons_of_ne _ h h']
    rfl

theorem takeWhile_isDigit_map_toLower :
    (s.map Char.toLower).takeWhile Char.isDigit = s.takeWhile Char.isDigit := by
  rw [takeWhile_map_toLower s isDigit_toLower, map_toLower_of_digits List.all_takeWhile]

theorem splitFraction_map_toLower :
    splitFraction (s.map Char.toLower) =
      ((splitFraction s).1, (splitFraction s).2.map Char.toLower) := by
  cases s with
  | nil => rfl
  | cons c rest =>
    have hpoint : c.toLower = '.' ↔ c = '.' := toLower_eq_iff (by decide)
    by_cases h : c = '.'
    · subst h
      change (_, _) = (_, _)
      rw [takeWhile_isDigit_map_toLower, dropWhile_map_toLower _ isDigit_toLower]
      rfl
    · rw [List.map_cons, splitFraction_cons_of_ne _ (mt hpoint.1 h), splitFraction_cons_of_ne _ h]
      rfl

theorem exponentOf?_map_toLower : exponentOf? (s.map Char.toLower) = exponentOf? s := by
  cases s with
  | nil => rfl
  | cons e rest =>
    have hall : ∀ digits : List Char,
        (digits.map Char.toLower).all Char.isDigit = digits.all Char.isDigit := by
      intro digits
      rw [List.all_map]
      exact congrArg digits.all (funext isDigit_toLower)
    simp only [List.map_cons, exponentOf?, splitSign_map_toLower,
      Text.isExponentMark_toLower, hall, List.isEmpty_map]
    split
    · rename_i h
      rw [Bool.and_eq_true] at h
      rw [map_toLower_of_digits h.2]
    · rfl

theorem ofText?_map_toLower : ofText? (s.map Char.toLower) = ofText? s := by
  rw [ofText?_eq, ofText?_eq]
  simp only [splitSign_map_toLower, takeWhile_isDigit_map_toLower,
    dropWhile_map_toLower _ isDigit_toLower, splitFraction_map_toLower, exponentOf?_map_toLower]

end Lower

end Numeral

theorem floatOfText?_map_toLower (s : List Char) :
    floatOfText? (s.map Char.toLower) = floatOfText? s := by
  have hname : ((Numeral.splitSign s).2.map Char.toLower).map Char.toLower =
      (Numeral.splitSign s).2.map Char.toLower := by
    rw [List.map_map]
    exact List.map_congr_left fun c _ => Char.toLower_toLower_eq_toLower c
  unfold floatOfText?
  rw [Numeral.splitSign_map_toLower, Numeral.ofText?_map_toLower]
  simp only [hname]

theorem TagValue.ofText_map_toLower (raw : List Char) :
    TagValue.ofText (raw.map Char.toLower) = TagValue.ofText raw := by
  rw [TagValue.ofText, TagValue.ofText, floatOfText?_map_toLower, Text.lower_map_toLower]

namespace Tags

theorem entry?_map_toLower (part : List Char) :
    entry? (part.map Char.toLower) = entry? part := by
  unfold entry?
  rw [Text.splitFirst?_map_toLower _ (by decide), Option.map_map]
  cases Text.splitFirst? ':' part with
  | none => rfl
  | some p =>
    simp only [Option.map_some, Function.comp, Text.trim_map_toLower, Text.lower_map_toLower,
      TagValue.ofText_map_toLower]

theorem ofComment_map_toLower (comment : List Char) :
    ofComment (comment.map Char.toLower) = ofComment comment := by
  rw [ofComment, ofComment, entries, entries, Text.splitOn_map_toLower _ (by decide),
    List.filterMap_map]
  have hentry : entry? ∘ List.map Char.toLower = entry? := funext entry?_map_toLower
  rw [hentry]

end Tags

namespace Command

theorem ofInstruction?_map_toLower (instruction : List Char) :
    ofInstruction? (instruction.map Char.toLower) = ofInstruction? instruction := by
  rw [ofInstruction?, ofInstruction?, Text.upper_map_toLower]

theorem argumentText_map_toLower (instruction : List Char) :
    argumentText (instruction.map Char.toLower) = argumentText instruction := by
  rw [argumentText, argumentText, Text.lower_map_toLower]

end Command

namespace Record

theorem ofText_tags (line : List Char) :
    (ofText line).tags = ((splitComment line).2.map Tags.ofComment).getD ∅ := rfl

theorem splitComment_map_toLower (line : List Char) :
    splitComment (line.map Char.toLower) =
      ((splitComment line).1.map Char.toLower,
        (splitComment line).2.map fun comment => comment.map Char.toLower) := by
  rw [splitComment, splitComment, Text.splitFirst?_map_toLower _ (by decide)]
  cases Text.splitFirst? ';' line with
  | none => rfl
  | some p => simp [Text.trim_map_toLower]

/-- The record with the ASCII letters of its comment in lower case. -/
def lowered (r : Record) : Record :=
  { r with comment := r.comment.map fun comment =>
      String.ofList (comment.toList.map Char.toLower) }

/-- Nothing but the comment shows the case of a line. -/
theorem ofText_map_toLower (line : List Char) :
    ofText (line.map Char.toLower) = (ofText line).lowered := by
  rw [ofText, ofText, splitComment_map_toLower]
  obtain ⟨instruction, comment⟩ := splitComment line
  simp only [Command.ofInstruction?_map_toLower, Command.argumentText_map_toLower]
  cases comment with
  | none => rfl
  | some comment =>
    simp only [Option.map_some, Tags.ofComment_map_toLower, lowered, String.toList_ofList]

end Record

end Toolpath
