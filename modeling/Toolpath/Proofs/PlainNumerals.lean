import Mathlib
import Toolpath.Proofs.FirstMatch
import Toolpath.Proofs.LetterCase

/-!
# Plain numerals

A plain numeral has no exponent: a sign or none, and digits with at most one point before the last
of them. The reader at the start of a text finds the longest one there, and what it reads is what
the numeral spells as a text of its own.
-/

namespace Toolpath

theorem takeWhile_of_boundary {p : Char → Bool} {s rest : List Char} (hs : ∀ c ∈ s, p c = true)
    (hrest : ∀ c ∈ rest.head?, p c = false) : (s ++ rest).takeWhile p = s := by
  rw [List.takeWhile_append_of_pos hs]
  cases rest with
  | nil => simp
  | cons c rest => simp [hrest c rfl]

theorem dropWhile_of_boundary {p : Char → Bool} {s rest : List Char} (hs : ∀ c ∈ s, p c = true)
    (hrest : ∀ c ∈ rest.head?, p c = false) : (s ++ rest).dropWhile p = rest := by
  rw [List.dropWhile_append_of_pos hs]
  cases rest with
  | nil => rfl
  | cons c rest => simp [hrest c rfl]

namespace Numeral

open Text (IsLongestStart)

/-- Digits, or digits behind a point, before which there may be more of them. -/
inductive IsUnsigned : List Char → Prop where
  | whole {digits : List Char} (hne : digits ≠ []) (hdigits : ∀ d ∈ digits, d.isDigit = true) :
      IsUnsigned digits
  | pointed {whole fraction : List Char} (hwhole : ∀ d ∈ whole, d.isDigit = true)
      (hne : fraction ≠ []) (hfraction : ∀ d ∈ fraction, d.isDigit = true) :
      IsUnsigned (whole ++ '.' :: fraction)

inductive IsPlain : List Char → Prop where
  | unsigned {s : List Char} (h : IsUnsigned s) : IsPlain s
  | signed {sign : Char} {s : List Char} (hsign : sign = '+' ∨ sign = '-') (h : IsUnsigned s) :
      IsPlain (sign :: s)

/-- How many characters stand behind the point. -/
def places (s : List Char) : Nat := ((s.dropWhile (· != '.')).drop 1).length

/-- The number that a plain numeral spells: its digits in one, with as many decimal places as
there are digits behind the point. -/
def spelled (s : List Char) : Numeral where
  negative := s.head? == some '-'
  digits := Nat.ofDigitChars 10 (s.filter Char.isDigit) 0
  exponent := -(places s : Int)

theorem ne_point_of_isDigit {d : Char} (h : d.isDigit = true) : (d != '.') = true := by
  rw [bne_iff_ne]
  rintro rfl
  cases h

theorem filter_whole {digits : List Char} (h : ∀ d ∈ digits, d.isDigit = true) :
    digits.filter Char.isDigit = digits :=
  List.filter_eq_self.2 h

theorem places_whole {digits : List Char} (h : ∀ d ∈ digits, d.isDigit = true) :
    places digits = 0 := by
  have hdrop : digits.dropWhile (· != '.') = [] :=
    List.dropWhile_eq_nil_iff.2 fun d hd => ne_point_of_isDigit (h d hd)
  rw [places, hdrop]
  rfl

theorem filter_pointed {whole fraction : List Char} (hwhole : ∀ d ∈ whole, d.isDigit = true)
    (hfraction : ∀ d ∈ fraction, d.isDigit = true) :
    (whole ++ '.' :: fraction).filter Char.isDigit = whole ++ fraction := by
  have hpoint : ('.' :: fraction).filter Char.isDigit = fraction := by
    rw [List.filter_cons_of_neg (by decide), filter_whole hfraction]
  rw [List.filter_append, filter_whole hwhole, hpoint]

theorem places_pointed {whole : List Char} (fraction : List Char)
    (hwhole : ∀ d ∈ whole, d.isDigit = true) :
    places (whole ++ '.' :: fraction) = fraction.length := by
  have hdrop : (whole ++ '.' :: fraction).dropWhile (· != '.') = '.' :: fraction :=
    dropWhile_of_boundary (fun d hd => ne_point_of_isDigit (hwhole d hd)) (by simp)
  rw [places, hdrop]
  rfl

theorem places_cons {sign : Char} (s : List Char) (h : sign ≠ '.') :
    places (sign :: s) = places s := by
  rw [places, places, List.dropWhile_cons_of_pos (by simp [h])]

theorem IsUnsigned.head {s : List Char} (h : IsUnsigned s) :
    ∃ c rest, s = c :: rest ∧ (c.isDigit = true ∨ c = '.') := by
  cases h with
  | whole hne hdigits =>
    obtain ⟨c, rest, rfl⟩ := List.exists_cons_of_ne_nil hne
    exact ⟨c, rest, rfl, .inl (hdigits c List.mem_cons_self)⟩
  | @pointed whole fraction hwhole =>
    cases whole with
    | nil => exact ⟨'.', fraction, rfl, .inr rfl⟩
    | cons c whole => exact ⟨c, _, rfl, .inl (hwhole c List.mem_cons_self)⟩

theorem IsUnsigned.not_sign {c : Char} {s : List Char} (h : IsUnsigned (c :: s)) :
    ¬ (c = '+' ∨ c = '-') := by
  obtain ⟨d, rest, heq, hd⟩ := h.head
  obtain ⟨rfl, -⟩ := List.cons.inj heq
  rintro (rfl | rfl) <;> obtain hd | hd := hd <;> cases hd

/-- The digits of a whole numeral at the start of a text are among the digits there, and a point
that belongs to a numeral is what follows them. -/
theorem IsUnsigned.at_start {s part after : List Char} (h : IsUnsigned part)
    (hparts : s = part ++ after) :
    part.length ≤ (s.takeWhile Char.isDigit).length ∨
      ∃ fraction, part = s.takeWhile Char.isDigit ++ '.' :: fraction ∧
        s.dropWhile Char.isDigit = '.' :: (fraction ++ after) ∧ fraction ≠ [] ∧
        ∀ d ∈ fraction, d.isDigit = true := by
  cases h with
  | whole hne hdigits =>
    left
    rw [hparts, List.takeWhile_append_of_pos hdigits, List.length_append]
    omega
  | @pointed whole fraction hwhole hne hfraction =>
    right
    rw [List.append_assoc, List.cons_append] at hparts
    have htake : s.takeWhile Char.isDigit = whole := by
      rw [hparts]
      exact takeWhile_of_boundary hwhole (by simp)
    have hdrop : s.dropWhile Char.isDigit = '.' :: (fraction ++ after) := by
      rw [hparts]
      exact dropWhile_of_boundary hwhole (by simp)
    exact ⟨fraction, by rw [htake], hdrop, hne, hfraction⟩

theorem splitFraction_cases (s : List Char) :
    (splitFraction s).1 = [] ∨ ∃ rest, s = '.' :: rest ∧
      (splitFraction s).1 = rest.takeWhile Char.isDigit ∧ rest.takeWhile Char.isDigit ≠ [] := by
  cases s with
  | nil => exact .inl rfl
  | cons c rest =>
    by_cases hpoint : c = '.'
    · subst hpoint
      by_cases hdigits : rest.takeWhile Char.isDigit = []
      · exact .inl hdigits
      · exact .inr ⟨rest, rfl, rfl, hdigits⟩
    · rw [splitFraction_cons_of_ne _ hpoint]
      exact .inl rfl

/-- The longest numeral without a sign at the start of a text, if there is any, has the digits that
the scan takes. -/
theorem unsigned_cases (s : List Char) :
    let whole := s.takeWhile Char.isDigit
    let fraction := (splitFraction (s.dropWhile Char.isDigit)).1
    ((whole.isEmpty && fraction.isEmpty) = true ∧
        ∀ part after, s = part ++ after → ¬ IsUnsigned part) ∨
      ∃ part after, (whole.isEmpty && fraction.isEmpty) = false ∧
        IsLongestStart IsUnsigned s part after ∧
        part.filter Char.isDigit = whole ++ fraction ∧ places part = fraction.length := by
  intro whole fraction
  have hwhole : ∀ d ∈ whole, d.isDigit = true := fun _ => List.mem_takeWhile_imp
  obtain hfraction | ⟨rest, hdrop, hfraction, hne⟩ := splitFraction_cases (s.dropWhile Char.isDigit)
  · have hat : ∀ part after, s = part ++ after → IsUnsigned part → part.length ≤ whole.length := by
      intro part after hparts hpart
      obtain hle | ⟨digits, -, hrest, hne, hdigits⟩ := hpart.at_start hparts
      · exact hle
      · -- Digits behind the point would be the fraction that the scan takes.
        rw [hrest] at hfraction
        change (digits ++ after).takeWhile Char.isDigit = [] at hfraction
        rw [List.takeWhile_append_of_pos hdigits, List.append_eq_nil_iff] at hfraction
        exact absurd hfraction.1 hne
    have hempty : fraction = [] := hfraction
    rw [hempty]
    cases hw : whole with
    | nil =>
      left
      refine ⟨rfl, ?_⟩
      intro part after hparts hpart
      obtain ⟨c, rest, rfl, -⟩ := hpart.head
      have hle := hat _ _ hparts hpart
      rw [hw] at hle
      cases hle
    | cons c digits =>
      right
      rw [← hw]
      have hne : whole ≠ [] := by
        rw [hw]
        exact List.cons_ne_nil _ _
      refine ⟨whole, s.dropWhile Char.isDigit, ?_, ?_, ?_, places_whole hwhole⟩
      · simp [hne]
      · exact ⟨List.takeWhile_append_dropWhile.symm, .whole hne hwhole, hat⟩
      · rw [filter_whole hwhole, List.append_nil]
  · right
    have hfraction : fraction = rest.takeWhile Char.isDigit := hfraction
    have hdigits : ∀ d ∈ fraction, d.isDigit = true := by
      rw [hfraction]
      exact fun _ => List.mem_takeWhile_imp
    have hne : fraction ≠ [] := by
      rw [hfraction]
      exact hne
    refine ⟨whole ++ '.' :: fraction, rest.dropWhile Char.isDigit, ?_, ⟨?_, ?_, ?_⟩, ?_, ?_⟩
    · simp [hne]
    · calc s = whole ++ s.dropWhile Char.isDigit := List.takeWhile_append_dropWhile.symm
        _ = whole ++ '.' :: (fraction ++ rest.dropWhile Char.isDigit) := by
          rw [hdrop, hfraction, List.takeWhile_append_dropWhile]
        _ = whole ++ '.' :: fraction ++ rest.dropWhile Char.isDigit := by simp
    · exact .pointed hwhole hne hdigits
    · intro part after hparts hpart
      obtain hle | ⟨digits, hpart, hrest, -, hall⟩ := hpart.at_start hparts
      · have hle : part.length ≤ whole.length := hle
        rw [List.length_append]
        omega
      · have htail : rest = digits ++ after := by
          rw [hdrop] at hrest
          exact (List.cons.inj hrest).2
        rw [hpart, hfraction, htail, List.takeWhile_append_of_pos hall]
        change (whole ++ '.' :: digits).length ≤ _
        simp only [List.length_append, List.length_cons]
        omega
    · exact filter_pointed hwhole hdigits
    · exact places_pointed fraction hwhole

theorem splitSign_cases (s : List Char) :
    (∃ sign rest, s = sign :: rest ∧ (sign = '+' ∨ sign = '-') ∧
        splitSign s = (sign == '-', rest)) ∨
      (splitSign s = (false, s) ∧ (s.head? == some '-') = false ∧
        ∀ sign rest, s = sign :: rest → ¬ (sign = '+' ∨ sign = '-')) := by
  cases s with
  | nil => exact .inr ⟨rfl, rfl, fun _ _ h => nomatch h⟩
  | cons c rest =>
    by_cases hsign : c = '+' ∨ c = '-'
    · refine .inl ⟨c, rest, rfl, hsign, ?_⟩
      obtain rfl | rfl := hsign <;> rfl
    · rw [not_or] at hsign
      refine .inr ⟨splitSign_cons_of_ne rest hsign.2 hsign.1, by simp [hsign.2], ?_⟩
      intro sign rest' h
      rw [← (List.cons.inj h).1, not_or]
      exact hsign

theorem isPlain_cons_iff {sign : Char} {s : List Char} (hsign : sign = '+' ∨ sign = '-') :
    IsPlain (sign :: s) ↔ IsUnsigned s := by
  constructor
  · intro h
    cases h with
    | unsigned h => exact absurd hsign h.not_sign
    | signed _ h => exact h
  · exact .signed hsign

theorem IsPlain.ne_nil {s : List Char} (h : IsPlain s) : s ≠ [] := by
  cases h with
  | unsigned h =>
    obtain ⟨c, rest, rfl, -⟩ := h.head
    exact List.cons_ne_nil _ _
  | signed => exact List.cons_ne_nil _ _

theorem IsPlain.isUnsigned {s part after : List Char}
    (hsign : ∀ sign rest, s = sign :: rest → ¬ (sign = '+' ∨ sign = '-'))
    (h : IsPlain part) (hparts : s = part ++ after) : IsUnsigned part := by
  cases h with
  | unsigned h => exact h
  | @signed sign body hsign' _ => exact absurd hsign' (hsign sign (body ++ after) hparts)

/-- The reader takes the longest plain numeral that the text starts with, and finds one if there is
any. -/
theorem ofStart?_cases (s : List Char) :
    (ofStart? s = none ∧ ∀ part after, s = part ++ after → ¬ IsPlain part) ∨
      ∃ part after, ofStart? s = some (spelled part) ∧ IsLongestStart IsPlain s part after := by
  rw [ofStart?_eq]
  obtain ⟨sign, body, rfl, hsign, hsplit⟩ | ⟨hsplit, hhead, hnosign⟩ := splitSign_cases s
  · simp only [hsplit]
    obtain ⟨hempty, hno⟩ | ⟨part, after, hempty, hlongest, hdigits, hplaces⟩ := unsigned_cases body
    · left
      rw [if_pos hempty]
      refine ⟨rfl, ?_⟩
      intro part after hparts hpart
      obtain ⟨c, part, rfl⟩ := List.exists_cons_of_ne_nil hpart.ne_nil
      obtain ⟨rfl, hbody⟩ := List.cons.inj hparts
      exact hno part after hbody ((isPlain_cons_iff hsign).1 hpart)
    · right
      rw [hempty, if_neg Bool.false_ne_true]
      refine ⟨sign :: part, after, ?_, ⟨?_, .signed hsign hlongest.meets, ?_⟩⟩
      · have hpoint : sign ≠ '.' := by rintro rfl; simp at hsign
        have hdigit : ¬ sign.isDigit = true := by obtain rfl | rfl := hsign <;> decide
        rw [ofDigits, spelled, List.filter_cons_of_neg hdigit, hdigits, places_cons _ hpoint,
          hplaces, Digits.decimal_eq_ofDigitChars, Int.zero_sub]
        rfl
      · rw [hlongest.parts, List.cons_append]
      · intro part' after' hparts hpart
        obtain ⟨c, part', rfl⟩ := List.exists_cons_of_ne_nil hpart.ne_nil
        obtain ⟨rfl, hbody⟩ := List.cons.inj hparts
        exact Nat.succ_le_succ
          (hlongest.longest part' after' hbody ((isPlain_cons_iff hsign).1 hpart))
  · simp only [hsplit]
    obtain ⟨hempty, hno⟩ | ⟨part, after, hempty, hlongest, hdigits, hplaces⟩ := unsigned_cases s
    · left
      rw [if_pos hempty]
      exact ⟨rfl, fun part after hparts hpart =>
        hno part after hparts (hpart.isUnsigned hnosign hparts)⟩
    · right
      rw [hempty, if_neg Bool.false_ne_true]
      refine ⟨part, after, ?_, ⟨hlongest.parts, .unsigned hlongest.meets, ?_⟩⟩
      · have hpart : (part.head? == some '-') = false := by
          obtain ⟨c, rest, rfl, -⟩ := hlongest.meets.head
          have hsign := hlongest.meets.not_sign
          rw [not_or] at hsign
          simp [hsign.2]
        rw [ofDigits, spelled, hdigits, hplaces, hpart, Digits.decimal_eq_ofDigitChars,
          Int.zero_sub]
      · intro part' after' hparts hpart
        exact hlongest.longest part' after' hparts (hpart.isUnsigned hnosign hparts)

theorem IsUnsigned.of_mem {s : List Char} (h : IsUnsigned s) :
    ∀ d ∈ s, d.isDigit = true ∨ d = '.' := by
  cases h with
  | whole _ hdigits => exact fun d hd => .inl (hdigits d hd)
  | pointed hwhole _ hfraction =>
    intro d hd
    rw [List.mem_append, List.mem_cons] at hd
    obtain hd | hd | hd := hd
    · exact .inl (hwhole d hd)
    · exact .inr hd
    · exact .inl (hfraction d hd)

theorem IsPlain.of_mem_tail {s : List Char} (h : IsPlain s) :
    ∀ d ∈ s.tail, d.isDigit = true ∨ d = '.' := by
  cases h with
  | unsigned h => exact fun d hd => h.of_mem d (List.mem_of_mem_tail hd)
  | signed _ h => exact h.of_mem

/-- A plain numeral is read as a whole where neither a digit nor a point comes next. -/
theorem IsPlain.isLongestStart {s rest : List Char} (h : IsPlain s)
    (hrest : ∀ c ∈ rest.head?, c.isDigit = false ∧ c ≠ '.') :
    IsLongestStart IsPlain (s ++ rest) s rest where
  parts := rfl
  meets := h
  longest part after hparts hpart := by
    by_contra hlong
    rw [Nat.not_le] at hlong
    obtain ⟨more, rfl⟩ : ∃ more, part = s ++ more :=
      (List.prefix_of_prefix_length_le ⟨rest, rfl⟩ ⟨after, hparts.symm⟩ hlong.le).imp
        fun _ h => h.symm
    rw [List.append_assoc, List.append_cancel_left_eq] at hparts
    cases more with
    | nil => simp at hlong
    | cons c more =>
      have hc : c.isDigit = false ∧ c ≠ '.' := hrest c (by rw [hparts]; rfl)
      have htail : c ∈ (s ++ c :: more).tail := by
        rw [List.tail_append_of_ne_nil h.ne_nil]
        simp
      obtain hdigit | hpoint := hpart.of_mem_tail c htail
      · rw [hc.1] at hdigit
        cases hdigit
      · exact hc.2 hpoint

theorem IsPlain.ofStart?_append {s rest : List Char} (h : IsPlain s)
    (hrest : ∀ c ∈ rest.head?, c.isDigit = false ∧ c ≠ '.') :
    ofStart? (s ++ rest) = some (spelled s) := by
  obtain ⟨-, hno⟩ | ⟨part, after, hsome, hlongest⟩ := ofStart?_cases (s ++ rest)
  · exact absurd h (hno s rest rfl)
  · have hpart := hlongest.isFirstMatch.unique (h.isLongestStart hrest).isFirstMatch
    rw [hsome, hpart.2.1]

theorem IsUnsigned.splitFraction_eq {s : List Char} (h : IsUnsigned s) :
    (splitFraction (s.dropWhile Char.isDigit)).2 = [] := by
  cases h with
  | whole _ hdigits => rw [List.dropWhile_eq_nil_iff.2 hdigits]; rfl
  | pointed hwhole _ hfraction =>
    rw [dropWhile_of_boundary hwhole (by simp)]
    exact List.dropWhile_eq_nil_iff.2 hfraction

/-- Read as a whole text, a numeral without an exponent is what the reader finds at the start. -/
theorem ofText?_eq_ofStart? {s : List Char}
    (h : (splitFraction ((splitSign s).2.dropWhile Char.isDigit)).2 = []) :
    ofText? s = ofStart? s := by
  rw [ofText?_eq, ofStart?_eq]
  simp only [h]
  rfl

theorem IsPlain.isUnsigned_splitSign {s : List Char} (h : IsPlain s) :
    IsUnsigned (splitSign s).2 := by
  obtain ⟨sign, body, rfl, hsign, hsplit⟩ | ⟨hsplit, -, hnosign⟩ := splitSign_cases s
  · rw [hsplit]
    exact (isPlain_cons_iff hsign).1 h
  · rw [hsplit]
    exact h.isUnsigned hnosign (List.append_nil s).symm

theorem IsPlain.ofText?_eq {s : List Char} (h : IsPlain s) : ofText? s = some (spelled s) := by
  have hstart : ofStart? (s ++ []) = some (spelled s) := h.ofStart?_append (by simp)
  rw [ofText?_eq_ofStart? h.isUnsigned_splitSign.splitFraction_eq, ← hstart, List.append_nil]

end Numeral

/-- A plain numeral is none of the names, so it converts to the double of what it spells. -/
theorem floatOfText?_of_isPlain {s : List Char} (h : Numeral.IsPlain s) :
    floatOfText? s = some (Numeral.spelled s).toFloat := by
  obtain ⟨c, body, hbody, hc⟩ := h.isUnsigned_splitSign.head
  have hhead : ∀ d name, (Numeral.splitSign s).2.map Char.toLower = d :: name →
      d.isDigit = true ∨ d = '.' := by
    intro d name heq
    rw [hbody, List.map_cons] at heq
    obtain ⟨rfl, -⟩ := List.cons.inj heq
    obtain hdigit | rfl := hc
    · exact .inl (by rw [Text.isDigit_toLower, hdigit])
    · exact .inr rfl
  have hinf : (Numeral.splitSign s).2.map Char.toLower ≠ "inf".toList :=
    fun heq => absurd (hhead 'i' _ heq) (by decide)
  have hinfinity : (Numeral.splitSign s).2.map Char.toLower ≠ "infinity".toList :=
    fun heq => absurd (hhead 'i' _ heq) (by decide)
  have hnan : (Numeral.splitSign s).2.map Char.toLower ≠ "nan".toList :=
    fun heq => absurd (hhead 'n' _ heq) (by decide)
  simp only [floatOfText?]
  rw [if_neg (not_or.2 ⟨hinf, hinfinity⟩), if_neg hnan, h.ofText?_eq]
  rfl

end Toolpath
