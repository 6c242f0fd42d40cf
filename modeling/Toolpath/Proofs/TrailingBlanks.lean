import Mathlib
import Toolpath.Record.OfLine

/-!
# Blanks at the end of a line

A line says the same with or without blanks at its end. A blank is part of no code, numeral or
separator, has no case, and leaves the capital sigma before it at the end of its word. So each
scan of a line goes through the line as if the blank behind it were not there, and hands the blank
on, if at all, as the end of its last part.
-/

namespace Toolpath

namespace Text

/-- The numbers of the blanks, from the first to the last of each run. -/
def blankRanges : List (Nat × Nat) :=
  [(0x09, 0x0D), (0x20, 0x20), (0x85, 0x85), (0xA0, 0xA0), (0x1680, 0x1680), (0x2000, 0x200A),
    (0x2028, 0x2029), (0x202F, 0x202F), (0x205F, 0x205F), (0x3000, 0x3000)]

theorem isBlank_eq (b : Char) : isBlank b = inRanges blankRanges b.toNat := by
  rw [Bool.eq_iff_iff]
  simp only [isBlank, inRanges, blankRanges, List.any_cons, List.any_nil, Bool.or_eq_true,
    Bool.and_eq_true, decide_eq_true_eq, beq_iff_eq, Bool.or_false]
  omega

/-- Ranges without any blank. -/
def areBlankFree (ranges : List (Nat × Nat)) : Bool :=
  ranges.all fun r => blankRanges.all fun q => q.2 < r.1 || r.2 < q.1

theorem not_mem_of_areBlankFree {ranges : List (Nat × Nat)} (h : areBlankFree ranges = true)
    {b : Char} (hb : isBlank b = true) {r : Nat × Nat} (hr : r ∈ ranges) :
    ¬ (r.1 ≤ b.toNat ∧ b.toNat ≤ r.2) := by
  rw [isBlank_eq, inRanges, List.any_eq_true] at hb
  obtain ⟨q, hq, hin⟩ := hb
  have hapart := List.all_eq_true.1 (List.all_eq_true.1 h r hr) q hq
  simp only [Bool.and_eq_true, Bool.or_eq_true, decide_eq_true_eq] at hin hapart
  omega

theorem inRanges_of_areBlankFree {ranges : List (Nat × Nat)} (h : areBlankFree ranges = true)
    {b : Char} (hb : isBlank b = true) : inRanges ranges b.toNat = false := by
  rw [inRanges, List.any_eq_false]
  intro r hr
  simpa using not_mem_of_areBlankFree h hb hr

theorem mapThrough_of_areBlankFree {runs : List CaseRun}
    (h : areBlankFree (runs.map fun r => (r.first, r.last)) = true) {b : Char}
    (hb : isBlank b = true) : mapThrough runs b.toNat = b.toNat := by
  have hnone : runs.find? (fun r => r.contains b.toNat) = none := by
    rw [List.find?_eq_none]
    intro r hr hcontains
    rw [CaseRun.contains, Bool.and_eq_true, Bool.and_eq_true, decide_eq_true_eq,
      decide_eq_true_eq] at hcontains
    exact not_mem_of_areBlankFree h hb (List.mem_map_of_mem hr) hcontains.1
  rw [mapThrough, hnone]

theorem caseTables_areBlankFree :
    areBlankFree casedRanges = true ∧ areBlankFree caseIgnorableRanges = true ∧
      areBlankFree (lowerRuns.map fun r => (r.first, r.last)) = true ∧
      areBlankFree (upperRuns.map fun r => (r.first, r.last)) = true ∧
      areBlankFree (upperExpansions.map fun e => (e.1, e.1)) = true := by decide +kernel

section

variable {b : Char} (hb : isBlank b = true)
include hb

theorem isAlphanum_of_isBlank : b.isAlphanum = false := by
  have hfree : areBlankFree [(0x30, 0x39), (0x41, 0x5A), (0x61, 0x7A)] = true := by decide
  have hranges := inRanges_of_areBlankFree hfree hb
  rw [← hranges, Bool.eq_iff_iff]
  simp only [Char.isAlphanum, Char.isAlpha, Char.isUpper, Char.isLower, Char.isDigit, inRanges,
    UInt32.le_iff_toNat_le, List.any_cons, List.any_nil, Bool.or_eq_true, Bool.and_eq_true,
    decide_eq_true_eq, Bool.or_false]
  change (65 ≤ b.toNat ∧ b.toNat ≤ 90 ∨ 97 ≤ b.toNat ∧ b.toNat ≤ 122) ∨
    (48 ≤ b.toNat ∧ b.toNat ≤ 57) ↔ _
  omega

theorem isAlpha_of_isBlank : b.isAlpha = false :=
  (Bool.or_eq_false_iff.1 (isAlphanum_of_isBlank hb)).1

theorem isDigit_of_isBlank : b.isDigit = false :=
  (Bool.or_eq_false_iff.1 (isAlphanum_of_isBlank hb)).2

theorem isCased_of_isBlank : isCased b = false :=
  inRanges_of_areBlankFree caseTables_areBlankFree.1 hb

theorem isCaseIgnorable_of_isBlank : isCaseIgnorable b = false :=
  inRanges_of_areBlankFree caseTables_areBlankFree.2.1 hb

theorem ne_of_isBlank {c : Char} (hc : isBlank c = false) : b ≠ c := by
  rintro rfl
  rw [hb] at hc
  cases hc

theorem lowerChar_of_isBlank : lowerChar b = [b] := by
  obtain ⟨-, -, hlower, -⟩ := caseTables_areBlankFree
  have halpha := isAlpha_of_isBlank hb
  rw [Char.isAlpha, Bool.or_eq_false_iff] at halpha
  have hdotted : b ≠ 'İ' := ne_of_isBlank hb (by decide)
  rw [lowerChar, if_neg hdotted, mapThrough_of_areBlankFree hlower hb, Char.ofNat_toNat,
    Char.toLower_eq_of_not_isUpper (by simp [halpha.1]), ite_self]

theorem upperChar_of_isBlank : upperChar b = [b] := by
  obtain ⟨-, -, -, hupper, hexpansions⟩ := caseTables_areBlankFree
  have halpha := isAlpha_of_isBlank hb
  rw [Char.isAlpha, Bool.or_eq_false_iff] at halpha
  have hnone : upperExpansions.lookup b.toNat = none := by
    rw [List.lookup_eq_none_iff]
    intro e he
    have hne := not_mem_of_areBlankFree hexpansions hb (List.mem_map_of_mem he)
    simp only [bne_iff_ne, ne_eq]
    omega
  rw [upperChar, hnone, mapThrough_of_areBlankFree hupper hb, Char.ofNat_toNat,
    Char.toUpper_eq_of_not_isLower (by simp [halpha.2])]
  exact ite_self _

theorem trim_cons_of_isBlank (s : List Char) : trim (b :: s) = trim s := by
  rw [trim, trimStart_cons_of_isBlank s hb, trim]

end

section Trim

variable {α : Type} {f : List Char → α}

theorem apply_trimStart (h : ∀ b s, isBlank b = true → f (b :: s) = f s) (s : List Char) :
    f (trimStart s) = f s := by
  induction s with
  | nil => rfl
  | cons c s ih =>
    cases hc : isBlank c with
    | true => rw [trimStart_cons_of_isBlank s hc, ih, h c s hc]
    | false => rw [trimStart_cons_of_not_isBlank s hc]

theorem apply_trimEnd (h : ∀ s b, isBlank b = true → f (s ++ [b]) = f s) (s : List Char) :
    f (trimEnd s) = f s := by
  induction s using List.reverseRecOn with
  | nil => rfl
  | append_singleton s c ih =>
    cases hc : isBlank c with
    | true => rw [trimEnd_concat_of_isBlank s hc, ih, h s c hc]
    | false => rw [trimEnd_concat_of_not_isBlank s hc]

/-- What takes no notice of a blank at either end takes none of all of them. -/
theorem apply_trim (hstart : ∀ b s, isBlank b = true → f (b :: s) = f s)
    (hend : ∀ s b, isBlank b = true → f (s ++ [b]) = f s) (s : List Char) : f (trim s) = f s := by
  rw [trim, apply_trimEnd hend, apply_trimStart hstart]

end Trim

end Text

section Concat

open Text

variable {b : Char} (s : List Char)

theorem takeWhile_concat {p : Char → Bool} (h : p b = false) :
    (s ++ [b]).takeWhile p = s.takeWhile p := by
  rw [List.takeWhile_append, List.takeWhile_cons_of_neg (ne_true_of_eq_false h), List.append_nil]
  split
  · rename_i hall
    exact ((List.takeWhile_prefix p).eq_of_length hall).symm
  · rfl

theorem dropWhile_concat {p : Char → Bool} (h : p b = false) :
    (s ++ [b]).dropWhile p = s.dropWhile p ++ [b] := by
  rw [List.dropWhile_append, List.dropWhile_cons_of_neg (ne_true_of_eq_false h)]
  split
  · rename_i hnone
    rw [List.isEmpty_iff.1 hnone]
    rfl
  · rfl

theorem Text.splitFirst?_concat {sep : Char} (h : b ≠ sep) :
    splitFirst? sep (s ++ [b]) = (splitFirst? sep s).map fun p => (p.1, p.2 ++ [b]) := by
  induction s with
  | nil => exact splitFirst?_cons_of_ne [] h
  | cons c s ih =>
    by_cases hc : c = sep
    · rw [hc, List.cons_append, splitFirst?_cons_self, splitFirst?_cons_self]
      rfl
    · rw [List.cons_append, splitFirst?_cons_of_ne _ hc, splitFirst?_cons_of_ne _ hc, ih,
        Option.map_map, Option.map_map]
      rfl

variable (hb : isBlank b = true)
include hb

namespace Text

theorem trimStart_concat :
    trimStart (s ++ [b]) = if (trimStart s).isEmpty then [] else trimStart s ++ [b] := by
  rw [trimStart, List.dropWhile_append, List.dropWhile_cons_of_pos hb]
  rfl

theorem trim_concat : trim (s ++ [b]) = trim s := by
  rw [trim, trim, trimStart_concat s hb]
  split
  · rename_i h
    rw [List.isEmpty_iff.1 h]
  · exact trimEnd_concat_of_isBlank _ hb

theorem upper_concat : upper (s ++ [b]) = upper s ++ [b] := by
  rw [upper_append, upper, upper, List.flatMap_singleton, upperChar_of_isBlank hb]

/-- The end of the text and a blank are the same to a sigma before them. -/
theorem meetsCased_concat : meetsCased (s ++ [b]) = meetsCased s := by
  rw [meetsCased, meetsCased, dropWhile_concat s (isCaseIgnorable_of_isBlank hb)]
  cases s.dropWhile isCaseIgnorable with
  | nil => exact isCased_of_isBlank hb
  | cons c rest => rfl

theorem lowerAfter_concat (before : List Char) :
    lowerAfter before (s ++ [b]) = lowerAfter before s ++ [b] := by
  induction s generalizing before with
  | nil =>
    have hsigma : b ≠ 'Σ' := ne_of_isBlank hb (by decide)
    simp [lowerAfter, hsigma, lowerChar_of_isBlank hb]
  | cons c s ih =>
    simp only [List.cons_append, lowerAfter, sigmaForm, meetsCased_concat s hb, ih,
      List.append_assoc]

theorem lower_concat : lower (s ++ [b]) = lower s ++ [b] := lowerAfter_concat s hb []

end Text

namespace Numeral

theorem splitSign_concat : splitSign (s ++ [b]) = ((splitSign s).1, (splitSign s).2 ++ [b]) := by
  cases s with
  | nil =>
    have hminus : b ≠ '-' := ne_of_isBlank hb (by decide)
    have hplus : b ≠ '+' := ne_of_isBlank hb (by decide)
    exact splitSign_cons_of_ne [] hminus hplus
  | cons c s =>
    by_cases hminus : c = '-'
    · rw [hminus]
      rfl
    by_cases hplus : c = '+'
    · rw [hplus]
      rfl
    rw [List.cons_append, splitSign_cons_of_ne _ hminus hplus, splitSign_cons_of_ne _ hminus hplus]
    rfl

theorem splitFraction_concat : (splitFraction (s ++ [b])).1 = (splitFraction s).1 := by
  cases s with
  | nil =>
    have hpoint : b ≠ '.' := ne_of_isBlank hb (by decide)
    rw [List.nil_append, splitFraction_cons_of_ne [] hpoint]
    rfl
  | cons c s =>
    by_cases hpoint : c = '.'
    · rw [hpoint]
      exact takeWhile_concat s (isDigit_of_isBlank hb)
    · rw [List.cons_append, splitFraction_cons_of_ne _ hpoint, splitFraction_cons_of_ne _ hpoint]

theorem ofStart?_concat : ofStart? (s ++ [b]) = ofStart? s := by
  have hdigit := isDigit_of_isBlank hb
  rw [ofStart?_eq, ofStart?_eq]
  simp only [splitSign_concat s hb, takeWhile_concat _ hdigit, dropWhile_concat _ hdigit,
    splitFraction_concat _ hb]

end Numeral

namespace Command

theorem splitCode?_concat {isLead : Char → Bool} (hlead : isLead b = false) :
    splitCode? isLead (s ++ [b]) =
      (splitCode? isLead s).map fun (before, code, after) => (before, code, after ++ [b]) := by
  have hdigit := isDigit_of_isBlank hb
  induction s with
  | nil => simp [splitCode?, hlead]
  | cons c s ih =>
    simp only [List.cons_append, splitCode?, takeWhile_concat s hdigit, dropWhile_concat s hdigit,
      ih]
    split
    · rfl
    · rw [Option.map_map, Option.map_map]
      rfl

theorem ofInstruction?_concat : ofInstruction? (s ++ [b]) = ofInstruction? s := by
  have hlead : isUpperLead b = false := by
    have hG : b ≠ 'G' := ne_of_isBlank hb (by decide)
    have hM : b ≠ 'M' := ne_of_isBlank hb (by decide)
    simp [isUpperLead, hG, hM]
  rw [ofInstruction?, ofInstruction?, upper_concat s hb, splitCode?_concat _ hb hlead,
    Option.map_map]
  rfl

theorem argumentText_concat : argumentText (s ++ [b]) = argumentText s ++ [b] := by
  have hlead : isLowerLead b = false := by
    have hg : b ≠ 'g' := ne_of_isBlank hb (by decide)
    have hm : b ≠ 'm' := ne_of_isBlank hb (by decide)
    simp [isLowerLead, hg, hm]
  simp only [argumentText, lower_concat s hb, splitCode?_concat _ hb hlead]
  cases splitCode? isLowerLead (lower s) with
  | none => rfl
  | some p => exact (List.append_assoc _ _ _).symm

end Command

namespace Words

theorem numeralAfter?_concat {letter : Char} (h : b ≠ letter) :
    numeralAfter? letter (s ++ [b]) = numeralAfter? letter s := by
  induction s with
  | nil => simp [numeralAfter?, h]
  | cons c s ih =>
    have hstart : Numeral.ofStart? (trimStart (s ++ [b])) = Numeral.ofStart? (trimStart s) := by
      rw [trimStart_concat s hb]
      split
      · rename_i hempty
        rw [List.isEmpty_iff.1 hempty]
      · exact Numeral.ofStart?_concat _ hb
    rw [List.cons_append, numeralAfter?, numeralAfter?, hstart, ih]

theorem wordOf?_concat {letter : Char} (h : b ≠ letter) :
    wordOf? (s ++ [b]) letter = wordOf? s letter := by
  have hmem : letter ∈ s ++ [b] ↔ letter ∈ s := by
    simp [Ne.symm h]
  rw [wordOf?, wordOf?, numeralAfter?_concat s hb h]
  simp only [hmem]

theorem ofText_concat : ofText (s ++ [b]) = ofText s := by
  have hletters : letters.all Char.isAlpha = true := by decide +kernel
  rw [ofText, ofText]
  congr 1
  apply List.filterMap_congr
  intro letter hmem
  rw [wordOf?_concat s hb]
  rintro rfl
  have halpha : b.isAlpha = true := List.all_eq_true.1 hletters b hmem
  rw [isAlpha_of_isBlank hb] at halpha
  cases halpha

end Words

namespace Record

theorem ofText_concat : ofText (s ++ [b]) = ofText s := by
  have hsplit := splitFirst?_concat s (ne_of_isBlank (c := ';') hb (by decide))
  unfold ofText splitComment
  rw [hsplit]
  cases splitFirst? ';' s with
  | none =>
    simp only [Option.map_none, Command.ofInstruction?_concat s hb,
      Command.argumentText_concat s hb, Words.ofText_concat _ hb]
  | some p => simp only [Option.map_some, trim_concat p.2 hb]

end Record

end Concat

theorem Text.trim_trim (s : List Char) : trim (trim s) = trim s :=
  apply_trim (fun _ s hb => trim_cons_of_isBlank hb s) (fun s _ => trim_concat s) s

/-- The blanks at the end of a line change nothing of its record. -/
theorem Record.ofText_trimEnd (s : List Char) : ofText (Text.trimEnd s) = ofText s :=
  Text.apply_trimEnd (fun s _ => ofText_concat s) s

end Toolpath
