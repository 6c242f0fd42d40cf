import Toolpath.Proofs.FirstCode
import Toolpath.Proofs.PlainNumerals
import Toolpath.Proofs.Rounding
import Toolpath.Proofs.TrailingBlanks

/-!
# Where words are read

Each letter has its own scan. Its word is a number if the letter, any blanks and a plain numeral
stand in a row anywhere, and then the number is spelled by the longest numeral at the leftmost such
place. A letter without one is a flag.
-/

namespace Toolpath

/-- What a plain numeral is read as: a text that converts, and the double nearest to what the text
spells. -/
structure Numeral.ReadsAs (s : List Char) (x : Float) : Prop where
  converts : floatOfText? s = some x
  rounds : Binary.RoundsTo (spelled s).negative (spelled s).magnitude x

theorem Numeral.IsPlain.readsAs {s : List Char} (h : IsPlain s) : ReadsAs s (spelled s).toFloat where
  converts := floatOfText?_of_isPlain h
  rounds := roundsTo_toFloat (spelled s)

namespace Words

open Numeral (IsPlain ReadsAs spelled)
open Text (IsFirstMatch IsLongestStart HasMatch)

/-- A letter, any blanks, and a plain numeral. -/
def IsSpelled (letter : Char) (part : List Char) : Prop :=
  ∃ gap numeral, part = letter :: (gap ++ numeral) ∧ (∀ b ∈ gap, Text.isBlank b = true) ∧
    IsPlain numeral

theorem isBlank_head_of_isPlain {s rest : List Char} (h : IsPlain s) :
    ∀ c ∈ (s ++ rest).head?, Text.isBlank c = false := by
  have hunsigned : ∀ c : Char, c.isDigit = true ∨ c = '.' → Text.isBlank c = false := by
    rintro c (hdigit | rfl)
    · rw [Bool.eq_false_iff]
      intro hblank
      rw [Text.isDigit_of_isBlank hblank] at hdigit
      cases hdigit
    · decide
  intro c hc
  cases h with
  | unsigned h =>
    obtain ⟨d, body, rfl, hd⟩ := h.head
    obtain rfl : d = c := Option.some.inj hc
    exact hunsigned d hd
  | @signed sign body hsign _ =>
    obtain rfl : sign = c := Option.some.inj hc
    obtain rfl | rfl := hsign <;> decide

/-- What is spelled at the start of a text is the letter there, all of the blanks behind it, and a
numeral with which the text goes on behind them. -/
theorem IsSpelled.at_start {letter c : Char} {s part after : List Char}
    (h : IsSpelled letter part) (hparts : c :: s = part ++ after) :
    c = letter ∧ ∃ numeral, IsPlain numeral ∧
      part = letter :: (s.takeWhile Text.isBlank ++ numeral) ∧
      Text.trimStart s = numeral ++ after := by
  obtain ⟨gap, numeral, rfl, hgap, hnumeral⟩ := h
  rw [List.cons_append, List.append_assoc] at hparts
  obtain ⟨hc, hs⟩ := List.cons.inj hparts
  have hhead : ∀ c ∈ (numeral ++ after).head?, Text.isBlank c = false :=
    isBlank_head_of_isPlain hnumeral
  refine ⟨hc, numeral, hnumeral, ?_, ?_⟩
  · rw [hs, takeWhile_of_boundary hgap hhead]
  · rw [hs, Text.trimStart, dropWhile_of_boundary hgap hhead]

theorem isLongestStart_of_numeral {letter : Char} {s numeral after : List Char}
    (h : IsLongestStart IsPlain (Text.trimStart s) numeral after) :
    IsLongestStart (IsSpelled letter) (letter :: s)
      (letter :: (s.takeWhile Text.isBlank ++ numeral)) after where
  parts := by
    rw [List.cons_append, List.append_assoc, ← h.parts, Text.trimStart,
      List.takeWhile_append_dropWhile]
  meets := ⟨_, numeral, rfl, fun _ => List.mem_takeWhile_imp, h.meets⟩
  longest part' after' hparts hpart := by
    obtain ⟨-, numeral', hnumeral', rfl, htrim⟩ := hpart.at_start hparts
    have hle : numeral'.length ≤ numeral.length := h.longest _ _ htrim hnumeral'
    simp only [List.length_cons, List.length_append]
    omega

theorem numeralAfter?_of_some {letter : Char} {s : List Char} {n : Numeral}
    (h : Numeral.ofStart? (Text.trimStart s) = some n) :
    numeralAfter? letter (letter :: s) = some n := by
  rw [numeralAfter?, if_pos rfl, h]

theorem numeralAfter?_of_none {letter : Char} {s : List Char}
    (h : Numeral.ofStart? (Text.trimStart s) = none) :
    numeralAfter? letter (letter :: s) = numeralAfter? letter s := by
  rw [numeralAfter?, if_pos rfl, h]

theorem numeralAfter?_append {c : Char} {s : List Char} (h : c ∉ s) (t : List Char) :
    numeralAfter? c (s ++ t) = numeralAfter? c t := by
  induction s with
  | nil => rfl
  | cons d s ih =>
    rw [List.mem_cons, not_or] at h
    rw [List.cons_append, numeralAfter?, if_neg (Ne.symm h.1), ih h.2]

theorem wordOf?_append {c : Char} {s : List Char} (h : c ∉ s) (t : List Char) :
    wordOf? (s ++ t) c = wordOf? t c := by
  rw [wordOf?, wordOf?, numeralAfter?_append h]
  simp only [List.mem_append, h, false_or]

theorem numeralAfter?_cases (letter : Char) (s : List Char) :
    (numeralAfter? letter s = none ∧ ¬ HasMatch (IsSpelled letter) s) ∨
      ∃ before gap numeral after, numeralAfter? letter s = some (spelled numeral) ∧
        (∀ b ∈ gap, Text.isBlank b = true) ∧ IsPlain numeral ∧
        IsFirstMatch (IsSpelled letter) s before (letter :: (gap ++ numeral)) after := by
  induction s with
  | nil =>
    refine .inl ⟨rfl, ?_⟩
    rintro ⟨before, part, after, hparts, gap, numeral, rfl, -⟩
    simp at hparts
  | cons c s ih =>
    by_cases hfound : c = letter ∧ ∃ numeral after,
        Numeral.ofStart? (Text.trimStart s) = some (spelled numeral) ∧
          IsLongestStart IsPlain (Text.trimStart s) numeral after
    · obtain ⟨rfl, numeral, after, hstart, hlongest⟩ := hfound
      right
      refine ⟨[], s.takeWhile Text.isBlank, numeral, after, ?_, fun _ => List.mem_takeWhile_imp,
        hlongest.meets, (isLongestStart_of_numeral hlongest).isFirstMatch⟩
      exact numeralAfter?_of_some hstart
    · -- Nothing that is spelled begins here, so the scan goes on behind the character.
      have hnot : ∀ part after, c :: s = part ++ after → ¬ IsSpelled letter part := by
        intro part after hparts hpart
        obtain ⟨hc, numeral, hnumeral, -, htrim⟩ := hpart.at_start hparts
        obtain ⟨-, hno⟩ | hsome := Numeral.ofStart?_cases (Text.trimStart s)
        · exact hno numeral after htrim hnumeral
        · exact hfound ⟨hc, hsome⟩
      have hskip : numeralAfter? letter (c :: s) = numeralAfter? letter s := by
        by_cases hc : c = letter
        · obtain ⟨hnone, -⟩ | hsome := Numeral.ofStart?_cases (Text.trimStart s)
          · rw [hc]
            exact numeralAfter?_of_none hnone
          · exact absurd ⟨hc, hsome⟩ hfound
        · rw [numeralAfter?, if_neg hc]
      rw [hskip]
      obtain ⟨hnone, hno⟩ | ⟨before, gap, numeral, after, hsome, hgap, hnumeral, hfirst⟩ := ih
      · exact .inl ⟨hnone, (Text.hasMatch_cons_iff hnot).not.2 hno⟩
      · exact .inr ⟨c :: before, gap, numeral, after, hsome, hgap, hnumeral, hfirst.cons hnot⟩

theorem eq_of_append_eq {gap gap' numeral numeral' : List Char}
    (hgap : ∀ b ∈ gap, Text.isBlank b = true) (hgap' : ∀ b ∈ gap', Text.isBlank b = true)
    (hnumeral : IsPlain numeral) (hnumeral' : IsPlain numeral')
    (h : gap ++ numeral = gap' ++ numeral') : numeral = numeral' := by
  have hhead : ∀ s : List Char, IsPlain s → ∀ c ∈ s.head?, Text.isBlank c = false := by
    intro s hs
    rw [← List.append_nil s]
    exact isBlank_head_of_isPlain hs
  have hrest : (gap ++ numeral).dropWhile Text.isBlank = numeral :=
    dropWhile_of_boundary hgap (hhead numeral hnumeral)
  rw [← hrest, h, dropWhile_of_boundary hgap' (hhead numeral' hnumeral')]

theorem wordOf?_eq_number_iff {text : List Char} {c : Char} {x : Float} :
    wordOf? text c = some (.number x) ↔ ∃ before gap numeral after,
      IsFirstMatch (IsSpelled c) text before (c :: (gap ++ numeral)) after ∧
        (∀ b ∈ gap, Text.isBlank b = true) ∧ IsPlain numeral ∧ ReadsAs numeral x := by
  rw [wordOf?]
  obtain ⟨hnone, hno⟩ | ⟨before, gap, numeral, after, hsome, hgap, hnumeral, hfirst⟩ :=
    numeralAfter?_cases c text
  · rw [hnone]
    constructor
    · intro h
      dsimp only at h
      split_ifs at h
      cases h
    · rintro ⟨before, gap, numeral, after, hfirst, -⟩
      exact absurd hfirst.hasMatch hno
  · rw [hsome]
    constructor
    · intro h
      obtain rfl : (spelled numeral).toFloat = x := Word.number.inj (Option.some.inj h)
      exact ⟨before, gap, numeral, after, hfirst, hgap, hnumeral, hnumeral.readsAs⟩
    · rintro ⟨before', gap', numeral', after', hfirst', hgap', hnumeral', hreads⟩
      obtain ⟨-, hpart, -⟩ := hfirst.unique hfirst'
      obtain rfl := eq_of_append_eq hgap hgap' hnumeral hnumeral' (List.cons.inj hpart).2
      have hsame := hnumeral.readsAs.converts.symm.trans hreads.converts
      exact congrArg (fun y => some (Word.number y)) (Option.some.inj hsame)

theorem exists_wordOf?_eq_number_iff {text : List Char} {c : Char} :
    (∃ x, wordOf? text c = some (.number x)) ↔ HasMatch (IsSpelled c) text := by
  constructor
  · rintro ⟨x, hx⟩
    obtain ⟨before, gap, numeral, after, hfirst, -⟩ := wordOf?_eq_number_iff.1 hx
    exact hfirst.hasMatch
  · intro h
    obtain ⟨-, hno⟩ | ⟨before, gap, numeral, after, hsome, -⟩ := numeralAfter?_cases c text
    · exact absurd h hno
    · refine ⟨(spelled numeral).toFloat, ?_⟩
      rw [wordOf?, hsome]

theorem wordOf?_eq_flag_iff {text : List Char} {c : Char} :
    wordOf? text c = some .flag ↔ c ∈ text ∧ ¬ HasMatch (IsSpelled c) text := by
  rw [← exists_wordOf?_eq_number_iff]
  cases hword : wordOf? text c with
  | none =>
    have hmem := wordOf?_eq_none_iff.1 hword
    simp [hmem]
  | some word =>
    have hmem : c ∈ text := by
      by_contra hmem
      rw [wordOf?_eq_none_iff.2 hmem] at hword
      cases hword
    cases word <;> simp [hmem]

theorem mem_letters_iff {c : Char} : c ∈ letters ↔ 'a' ≤ c ∧ c ≤ 'z' := by
  rw [letters, List.mem_map]
  constructor
  · rintro ⟨k, hk, rfl⟩
    have hrange : ∀ k < 26, 'a' ≤ Char.ofNat (0x61 + k) ∧ Char.ofNat (0x61 + k) ≤ 'z' := by
      decide
    exact hrange k (List.mem_range.1 hk)
  · rintro ⟨hlow, hhigh⟩
    have hlow : 0x61 ≤ c.toNat := UInt32.le_iff_toNat_le.1 hlow
    have hhigh : c.toNat ≤ 0x7A := UInt32.le_iff_toNat_le.1 hhigh
    refine ⟨c.toNat - 0x61, List.mem_range.2 (by omega), ?_⟩
    rw [Nat.add_sub_cancel' hlow, Char.ofNat_toNat]

theorem mem_letters_iff_isLower {c : Char} : c ∈ letters ↔ c.isLower = true := by
  rw [mem_letters_iff, Char.isLower, Bool.and_eq_true, decide_eq_true_eq, decide_eq_true_eq]
  rfl

theorem isAlpha_of_mem_letters {c : Char} (h : c ∈ letters) : c.isAlpha = true := by
  rw [Char.isAlpha, mem_letters_iff_isLower.1 h, Bool.or_true]

theorem getElem?_ofText (text : List Char) (c : Char) :
    (ofText text)[c]? = if c ∈ letters then wordOf? text c else none := by
  have hdistinct : letters.Pairwise (· ≠ ·) := by decide
  by_cases hword : ∃ word, c ∈ letters ∧ wordOf? text c = some word
  · obtain ⟨word, hc, hword⟩ := hword
    rw [if_pos hc, hword, ofText]
    refine Std.ExtTreeMap.getElem?_ofList_of_mem Std.ReflCmp.compare_self ?_ ?_
    · rw [List.pairwise_filterMap]
      refine hdistinct.imp ?_
      intro a b hne x hx y hy hsame
      obtain ⟨v, -, hv⟩ := Option.map_eq_some_iff.1 hx
      obtain ⟨w, -, hw⟩ := Option.map_eq_some_iff.1 hy
      rw [← hv, ← hw] at hsame
      exact hne (Std.compare_eq_iff_eq.1 hsame)
    · exact List.mem_filterMap.2 ⟨c, hc, by rw [hword]; rfl⟩
  · have hnone : (if c ∈ letters then wordOf? text c else none) = none := by
      split_ifs with hc
      · exact Option.eq_none_iff_forall_ne_some.2 fun word h => hword ⟨word, hc, h⟩
      · rfl
    rw [hnone, ofText]
    apply Std.ExtTreeMap.getElem?_ofList_of_contains_eq_false
    rw [Bool.eq_false_iff, ne_eq, List.contains_iff_mem]
    intro hmem
    obtain ⟨entry, hentry, rfl⟩ := List.mem_map.1 hmem
    obtain ⟨letter, hletter, hsome⟩ := List.mem_filterMap.1 hentry
    obtain ⟨word, hletterWord, rfl⟩ := Option.map_eq_some_iff.1 hsome
    exact hword ⟨word, hletter, hletterWord⟩

end Words

namespace Record

open Command (IsCode isLowerLead)
open Numeral (IsPlain ReadsAs)
open Text (IsFirstMatch HasMatch)
open Words (IsSpelled)

/-- The text that words are read from: the lower-case form of an instruction without its first
code. -/
inductive IsArgumentText (instruction : List Char) : List Char → Prop where
  | whole (h : ¬ HasMatch (IsCode isLowerLead) (Text.lower instruction)) :
      IsArgumentText instruction (Text.lower instruction)
  | joined {before code after : List Char}
      (h : IsFirstMatch (IsCode isLowerLead) (Text.lower instruction) before code after) :
      IsArgumentText instruction (before ++ after)

theorem isArgumentText (instruction : List Char) :
    IsArgumentText instruction (Command.argumentText instruction) := by
  rw [Command.argumentText]
  obtain ⟨hnone, hno⟩ | ⟨before, code, after, hsome, hfirst⟩ :=
    Command.splitCode?_cases isLowerLead (Text.lower instruction)
  · rw [hnone]
    exact .whole hno
  · rw [hsome]
    exact .joined hfirst

/-- The words of a line are those of the letters in the text that is left of its instruction. A
letter is a number if and only if it is spelled somewhere in this text, and then it is the one that
the longest numeral at the first such place reads as. Every plain numeral reads as one. -/
theorem words_follow_grammar (line : String) :
    ∃ text, IsArgumentText (instructionOf line) text ∧
      (∀ c, c ∈ (ofLine line).words ↔ ('a' ≤ c ∧ c ≤ 'z') ∧ c ∈ text) ∧
      (∀ c, (∃ x, (ofLine line).words[c]? = some (.number x)) ↔
        ('a' ≤ c ∧ c ≤ 'z') ∧ HasMatch (IsSpelled c) text) ∧
      (∀ c x, (ofLine line).words[c]? = some (.number x) ↔
        ('a' ≤ c ∧ c ≤ 'z') ∧ ∃ before gap numeral after,
          IsFirstMatch (IsSpelled c) text before (c :: (gap ++ numeral)) after ∧
            (∀ b ∈ gap, Text.isBlank b = true) ∧ IsPlain numeral ∧ ReadsAs numeral x) ∧
      (∀ c, (ofLine line).words[c]? = some .flag ↔
        ('a' ≤ c ∧ c ≤ 'z') ∧ c ∈ text ∧ ¬ HasMatch (IsSpelled c) text) ∧
      ∀ numeral, IsPlain numeral → ∃ x, ReadsAs numeral x := by
  refine ⟨_, isArgumentText (instructionOf line), ?_⟩
  rw [words_ofLine]
  generalize Command.argumentText (instructionOf line) = text
  have hword : ∀ c word, (Words.ofText text)[c]? = some word ↔
      ('a' ≤ c ∧ c ≤ 'z') ∧ Words.wordOf? text c = some word := by
    intro c word
    rw [Words.getElem?_ofText, ← Words.mem_letters_iff]
    split_ifs with hc <;> simp [hc]
  refine ⟨?_, ?_, ?_, ?_, fun numeral h => ⟨_, h.readsAs⟩⟩
  · intro c
    rw [Std.ExtTreeMap.mem_iff_isSome_getElem?, Option.isSome_iff_exists]
    simp only [hword]
    rw [exists_and_left, ← Option.isSome_iff_exists, Option.isSome_iff_ne_none, ne_eq,
      Words.wordOf?_eq_none_iff, not_not]
  · intro c
    simp only [hword]
    rw [exists_and_left, Words.exists_wordOf?_eq_number_iff]
  · intro c x
    rw [hword, Words.wordOf?_eq_number_iff]
  · intro c
    rw [hword, Words.wordOf?_eq_flag_iff]

end Record

end Toolpath
