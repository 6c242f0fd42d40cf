import Toolpath.Proofs.WordCharacters

/-!
# Values of tags

The value of a tag is a number if its text spells a finite one, and the text in lower case if not.
Lower case makes no numeral of a text that was none: a character beyond ASCII never becomes one of
which numerals are made, and the case of an ASCII letter does not matter to a numeral.
-/

namespace Toolpath

open Text (inRanges)

namespace Numeral

/-- The numbers of the signs, the point, the digits and the marks of an exponent. -/
def charRanges : List (Nat × Nat) :=
  [(0x2B, 0x2B), (0x2D, 0x2E), (0x30, 0x39), (0x45, 0x45), (0x65, 0x65)]

theorem charRanges_ascii : ∀ q ∈ charRanges, 0 < q.1 ∧ q.2 < 0x80 := by decide

/-- A character that numerals are made of. -/
def isNumeralChar (c : Char) : Bool := inRanges charRanges c.toNat

theorem isNumeralChar_of_isDigit {c : Char} (h : c.isDigit = true) : isNumeralChar c = true := by
  have hrange := (Text.isDigit_iff c).1 h
  simp only [isNumeralChar, inRanges, charRanges, List.any_cons, List.any_nil, Bool.or_eq_true,
    Bool.and_eq_true, decide_eq_true_eq]
  omega

variable {s : List Char}

theorem isNumeralChar_of_splitSign (h : ∀ c ∈ (splitSign s).2, isNumeralChar c = true) :
    ∀ c ∈ s, isNumeralChar c = true := by
  obtain ⟨sign, rest, rfl, hsign, hsplit⟩ | ⟨hsplit, -⟩ := splitSign_cases s
  · rw [hsplit] at h
    refine List.forall_mem_cons.2 ⟨?_, h⟩
    obtain rfl | rfl := hsign <;> decide
  · rwa [hsplit] at h

theorem isNumeralChar_of_splitFraction (hfraction : ∀ c ∈ (splitFraction s).1, c.isDigit = true)
    (hrest : ∀ c ∈ (splitFraction s).2, isNumeralChar c = true) :
    ∀ c ∈ s, isNumeralChar c = true := by
  cases s with
  | nil => exact hrest
  | cons c rest =>
    by_cases hpoint : c = '.'
    · subst hpoint
      refine List.forall_mem_cons.2 ⟨by decide, ?_⟩
      intro d hd
      rw [← List.takeWhile_append_dropWhile (p := Char.isDigit) (l := rest)] at hd
      rcases List.mem_append.1 hd with hd | hd
      · exact isNumeralChar_of_isDigit (hfraction d hd)
      · exact hrest d hd
    · rw [splitFraction_cons_of_ne rest hpoint] at hrest
      exact hrest

theorem isNumeralChar_of_exponentOf? {e : Int} (h : exponentOf? s = some e) :
    ∀ c ∈ s, isNumeralChar c = true := by
  cases s with
  | nil => exact fun c hc => nomatch hc
  | cons mark rest =>
    simp only [exponentOf?, Option.ite_none_right_eq_some, Bool.and_eq_true, Bool.or_eq_true,
      beq_iff_eq] at h
    obtain ⟨⟨⟨hmark, -⟩, hdigits⟩, -⟩ := h
    refine List.forall_mem_cons.2 ⟨?_, isNumeralChar_of_splitSign fun c hc => ?_⟩
    · obtain rfl | rfl := hmark <;> decide
    · exact isNumeralChar_of_isDigit (List.all_eq_true.1 hdigits c hc)

theorem isNumeralChar_of_ofText? {n : Numeral} (h : ofText? s = some n) :
    ∀ c ∈ s, isNumeralChar c = true := by
  let body := (splitSign s).2
  let behind := body.dropWhile Char.isDigit
  have hexponent : ∃ e, exponentOf? (splitFraction behind).2 = some e := by
    rw [ofText?_eq] at h
    obtain ⟨-, h⟩ := Option.ite_none_left_eq_some.1 h
    obtain ⟨e, he, -⟩ := Option.map_eq_some_iff.1 h
    exact ⟨e, he⟩
  obtain ⟨e, he⟩ := hexponent
  have hfraction : ∀ c ∈ (splitFraction behind).1, c.isDigit = true := by
    obtain hnil | ⟨rest, -, htake, -⟩ := splitFraction_cases behind
    · rw [hnil]
      exact fun c hc => nomatch hc
    · rw [htake]
      exact fun c hc => List.mem_takeWhile_imp hc
  have hbehind : ∀ c ∈ behind, isNumeralChar c = true :=
    isNumeralChar_of_splitFraction hfraction (isNumeralChar_of_exponentOf? he)
  apply isNumeralChar_of_splitSign
  intro c hc
  rw [← List.takeWhile_append_dropWhile (p := Char.isDigit) (l := (splitSign s).2)] at hc
  rcases List.mem_append.1 hc with hc | hc
  · exact isNumeralChar_of_isDigit (List.mem_takeWhile_imp hc)
  · exact hbehind c hc

end Numeral

/-- Names stand for no finite numbers, so a finite number comes of a numeral. -/
theorem exists_numeral_of_isFinite {s : List Char} {x : Float} (h : floatOfText? s = some x)
    (hx : x.isFinite = true) : ∃ n, Numeral.ofText? s = some n := by
  have hnames : ∀ y ∈ [infinity, -infinity, notANumber], y.isFinite = false := by decide +kernel
  simp only [floatOfText?] at h
  split_ifs at h with hinfinity hnegative hnan
  · rw [← Option.some.inj h, hnames _ (by simp)] at hx
    cases hx
  · rw [← Option.some.inj h, hnames _ (by simp)] at hx
    cases hx
  · rw [← Option.some.inj h, hnames _ (by simp)] at hx
    cases hx
  · obtain ⟨n, hn, -⟩ := Option.map_eq_some_iff.1 h
    exact ⟨n, hn⟩

namespace Text

/-- Ranges into which lower case takes no character beyond ASCII from outside. -/
structure AreClosed (ranges : List (Nat × Nat)) : Prop where
  positive : ∀ q ∈ ranges, 0 < q.1
  outside : mapOutside ranges lowerRuns = true
  special : ∀ c ∈ ['\u0307', 'σ', 'ς'], inRanges ranges c.toNat = false

section Closed

variable {ranges : List (Nat × Nat)} (h : AreClosed ranges)

include h

theorem AreClosed.of_lowerChar {c : Char}
    (hc : ∀ d ∈ lowerChar c, inRanges ranges d.toNat = true) :
    c.toNat < 0x80 ∨ inRanges ranges c.toNat = true := by
  by_cases hascii : c.toNat < 0x80
  · exact .inl hascii
  · right
    rw [lowerChar, if_neg hascii] at hc
    split_ifs at hc
    · have hdot := h.special '\u0307' (by simp)
      rw [hc '\u0307' (by simp)] at hdot
      cases hdot
    · by_contra hrange
      have hform := hc _ List.mem_cons_self
      rw [inRanges_mapThrough h.positive h.outside (Bool.eq_false_iff.2 hrange)] at hform
      cases hform

theorem AreClosed.of_lowerAfter {before s : List Char}
    (hs : ∀ d ∈ lowerAfter before s, inRanges ranges d.toNat = true) :
    ∀ c ∈ s, c.toNat < 0x80 ∨ inRanges ranges c.toNat = true := by
  induction s generalizing before with
  | nil => exact fun c hc => nomatch hc
  | cons c rest ih =>
    rw [lowerAfter, List.forall_mem_append] at hs
    refine List.forall_mem_cons.2 ⟨?_, ih hs.2⟩
    have hform := hs.1
    split_ifs at hform with hsigma
    · have hsigma : inRanges ranges (sigmaForm before rest).toNat = false := by
        apply h.special
        rw [sigmaForm]
        split_ifs <;> simp
      rw [hform _ List.mem_cons_self] at hsigma
      cases hsigma
    · exact h.of_lowerChar hform

end Closed

theorem areClosed_numeralChars : AreClosed Numeral.charRanges where
  positive q hq := (Numeral.charRanges_ascii q hq).1
  outside := by decide +kernel
  special := by simp [inRanges, Numeral.charRanges]

theorem lower_of_forms {s : List Char} (hsigma : 'Σ' ∉ s)
    (h : ∀ c ∈ s, lowerChar c = [c.toLower]) : lower s = s.map Char.toLower := by
  rw [lower, lowerAfter_eq_flatMap hsigma, List.map_eq_flatMap]
  exact List.flatMap_congr h

theorem lower_of_ascii {s : List Char} (h : ∀ c ∈ s, c.toNat < 0x80) :
    lower s = s.map Char.toLower := by
  refine lower_of_forms (fun hmem => ?_) fun c hc => lowerChar_of_ascii (h c hc)
  have hbound := h _ hmem
  revert hbound
  decide

end Text

namespace TagValue

/-- A text in lower case is a number only if the text itself is the same number. -/
theorem finite_of_lower {raw : List Char} {x : Float}
    (h : floatOfText? (Text.lower raw) = some x) (hx : x.isFinite = true) :
    floatOfText? raw = some x := by
  obtain ⟨n, hn⟩ := exists_numeral_of_isFinite h hx
  have hascii : ∀ c ∈ raw, c.toNat < 0x80 := by
    intro c hc
    obtain hascii | hrange :=
      Text.areClosed_numeralChars.of_lowerAfter (Numeral.isNumeralChar_of_ofText? hn) c hc
    · exact hascii
    · by_contra hbeyond
      rw [Text.inRanges_of_not_ascii Numeral.charRanges_ascii (Nat.le_of_not_lt hbeyond)] at hrange
      cases hrange
  rwa [Text.lower_of_ascii hascii, floatOfText?_map_toLower] at h

theorem ofText_eq_number_iff {raw : List Char} {x : Float} :
    ofText raw = .number x ↔ floatOfText? raw = some x ∧ x.isFinite = true := by
  rw [ofText, ← Option.filter_eq_some_iff]
  cases (floatOfText? raw).filter Float.isFinite with
  | none => simp
  | some y => simp

theorem toList_of_ofText {raw : List Char} {s : String} (h : ofText raw = .text s) :
    s.toList = Text.lower raw := by
  unfold ofText at h
  split at h
  · cases h
  · rw [← TagValue.text.inj h, String.toList_ofList]

/-- A text among the tag values would be no number if it were read again. -/
theorem ofText_ne_number {raw : List Char} {s : String} (h : ofText raw = .text s) (x : Float) :
    ofText s.toList ≠ .number x := by
  intro hagain
  rw [toList_of_ofText h, ofText_eq_number_iff] at hagain
  obtain ⟨hlower, hx⟩ := hagain
  rw [ofText_eq_number_iff.2 ⟨finite_of_lower hlower hx, hx⟩] at h
  cases h

end TagValue

end Toolpath
