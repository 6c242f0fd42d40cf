import Toolpath.Proofs.FirstMatch
import Toolpath.Proofs.LetterCase

/-!
# The code that is reported and the code that is taken out

The command of an instruction is found in its upper-case form, while its words are read from its
lower-case form without the first code. Case forms may be longer or shorter than a text and may
bring ASCII letters into it, but never a digit or the lead of a code. So both codes come from the
same place of the instruction, and they differ in the case of their leads alone.
-/

namespace Toolpath

namespace Command

/-- A lead and at least one digit. -/
def IsCode (isLead : Char → Bool) (code : List Char) : Prop :=
  ∃ lead digits, code = lead :: digits ∧ isLead lead = true ∧ digits ≠ [] ∧
    ∀ d ∈ digits, d.isDigit = true

/-- The leads of codes in either case. -/
def isLead (c : Char) : Bool := isUpperLead c || isLowerLead c

section SplitCode

open Text (IsLongestStart IsFirstMatch HasMatch)

variable {isLead : Char → Bool} {s : List Char}

theorem splitCode?_cons (isLead : Char → Bool) (c : Char) (s : List Char) :
    splitCode? isLead (c :: s) =
      if isLead c && !(s.takeWhile Char.isDigit).isEmpty then
        some ([], c :: s.takeWhile Char.isDigit, s.dropWhile Char.isDigit)
      else (splitCode? isLead s).map fun split => (c :: split.1, split.2) := rfl

theorem isLongestStart_of_lead {c : Char} (hlead : isLead c = true)
    (hdigits : s.takeWhile Char.isDigit ≠ []) :
    IsLongestStart (IsCode isLead) (c :: s) (c :: s.takeWhile Char.isDigit)
      (s.dropWhile Char.isDigit) where
  parts := by rw [List.cons_append, List.takeWhile_append_dropWhile]
  meets := ⟨c, _, rfl, hlead, hdigits, fun d hd => List.all_eq_true.1 List.all_takeWhile d hd⟩
  longest part' after' hparts hcode := by
    obtain ⟨lead, digits, rfl, -, -, hall⟩ := hcode
    have htail : s = digits ++ after' := (List.cons.inj hparts).2
    rw [htail, List.takeWhile_append_of_pos hall, List.length_cons, List.length_cons,
      List.length_append]
    omega

theorem not_isCode_of_not_lead {c : Char}
    (hc : (isLead c && !(s.takeWhile Char.isDigit).isEmpty) = false) {part after : List Char}
    (hparts : c :: s = part ++ after) : ¬ IsCode isLead part := by
  rintro ⟨lead, digits, rfl, hlead, hne, hall⟩
  have hhead : c = lead := (List.cons.inj hparts).1
  have htail : s = digits ++ after := (List.cons.inj hparts).2
  rw [hhead, hlead, htail, List.takeWhile_append_of_pos hall] at hc
  cases digits with
  | nil => exact hne rfl
  | cons d digits => cases hc

/-- The code that an instruction is split at is its first one, with all of its digits. -/
theorem splitCode?_cases (isLead : Char → Bool) (s : List Char) :
    (splitCode? isLead s = none ∧ ¬ HasMatch (IsCode isLead) s) ∨
      ∃ before code after, splitCode? isLead s = some (before, code, after) ∧
        IsFirstMatch (IsCode isLead) s before code after := by
  induction s with
  | nil =>
    refine .inl ⟨rfl, ?_⟩
    rintro ⟨before, part, after, hparts, lead, digits, rfl, -⟩
    simp at hparts
  | cons c s ih =>
    rw [splitCode?_cons]
    cases hc : isLead c && !(s.takeWhile Char.isDigit).isEmpty with
    | true =>
      rw [Bool.and_eq_true, Bool.not_eq_true', List.isEmpty_eq_false_iff] at hc
      exact .inr ⟨_, _, _, rfl, (isLongestStart_of_lead hc.1 hc.2).isFirstMatch⟩
    | false =>
      have hnot : ∀ part after, c :: s = part ++ after → ¬ IsCode isLead part :=
        fun _ _ hparts => not_isCode_of_not_lead hc hparts
      obtain ⟨hnone, hno⟩ | ⟨before, code, after, hsome, hfirst⟩ := ih
      · rw [hnone]
        exact .inl ⟨rfl, (Text.hasMatch_cons_iff hnot).not.2 hno⟩
      · rw [hsome]
        exact .inr ⟨c :: before, code, after, rfl, hfirst.cons hnot⟩

theorem splitCode?_eq_some_iff {before code after : List Char} :
    splitCode? isLead s = some (before, code, after) ↔
      IsFirstMatch (IsCode isLead) s before code after := by
  obtain ⟨hnone, hno⟩ | ⟨before', code', after', hsome, hfirst⟩ := splitCode?_cases isLead s
  · rw [hnone]
    exact ⟨(nomatch ·), fun h => absurd h.hasMatch hno⟩
  · rw [hsome, Option.some.injEq, Prod.mk.injEq, Prod.mk.injEq]
    constructor
    · rintro ⟨rfl, rfl, rfl⟩
      exact hfirst
    · exact hfirst.unique

theorem splitCode?_eq_none_iff :
    splitCode? isLead s = none ↔ ¬ HasMatch (IsCode isLead) s := by
  obtain ⟨hnone, hno⟩ | ⟨before, code, after, hsome, hfirst⟩ := splitCode?_cases isLead s
  · exact ⟨fun _ => hno, fun _ => hnone⟩
  · rw [hsome]
    exact ⟨(nomatch ·), fun h => absurd hfirst.hasMatch h⟩

end SplitCode

end Command

namespace Text

/-- The numbers of the digits and of the leads of codes. -/
def markRanges : List (Nat × Nat) :=
  [(0x30, 0x39), (0x47, 0x47), (0x4D, 0x4D), (0x67, 0x67), (0x6D, 0x6D)]

/-- A character that codes are made of. -/
def isMark (c : Char) : Bool := c.isDigit || Command.isLead c

theorem isMark_eq (c : Char) : isMark c = inRanges markRanges c.toNat := by
  have hchar : ∀ d : Char, c = d ↔ c.toNat = d.toNat := fun d => Char.toNat_inj.symm
  rw [Bool.eq_iff_iff]
  simp only [isMark, Command.isLead, Command.isUpperLead, Command.isLowerLead, Char.isDigit,
    inRanges, markRanges, List.any_cons, List.any_nil, Bool.or_eq_true, Bool.and_eq_true,
    decide_eq_true_eq, beq_iff_eq, hchar, UInt32.le_iff_toNat_le, Bool.or_false]
  change ((48 ≤ c.toNat ∧ c.toNat ≤ 57) ∨ (c.toNat = 71 ∨ c.toNat = 77) ∨
    (c.toNat = 103 ∨ c.toNat = 109)) ↔ _
  omega

/-- Runs of which no character maps into the ranges. -/
def mapOutside (ranges : List (Nat × Nat)) (runs : List CaseRun) : Bool :=
  runs.all fun r => ranges.all fun q => r.last + r.shift < q.1 || q.2 < r.first + r.shift

section Ranges

variable {ranges : List (Nat × Nat)}

theorem inRanges_of_not_ascii (hranges : ∀ q ∈ ranges, 0 < q.1 ∧ q.2 < 0x80) {n : Nat}
    (hn : 0x80 ≤ n) : inRanges ranges n = false := by
  rw [inRanges, List.any_eq_false]
  intro q hq
  have hend := hranges q hq
  simp only [Bool.and_eq_true, decide_eq_true_eq]
  omega

variable (hranges : ∀ q ∈ ranges, 0 < q.1)

include hranges

theorem inRanges_ofNat {n : Nat} (h : inRanges ranges n = false) :
    inRanges ranges (Char.ofNat n).toNat = false := by
  by_cases hn : n.isValidChar
  · rw [Char.toNat_ofNat, if_pos hn, h]
  · rw [Char.toNat_ofNat, if_neg hn, inRanges, List.any_eq_false]
    intro q hq
    have hstart := hranges q hq
    simp only [Bool.and_eq_true, decide_eq_true_eq]
    omega

/-- The form of a character outside the ranges is outside them, if the runs map outside. -/
theorem inRanges_mapThrough {runs : List CaseRun} (h : mapOutside ranges runs = true) {n : Nat}
    (hn : inRanges ranges n = false) :
    inRanges ranges (Char.ofNat (mapThrough runs n)).toNat = false := by
  apply inRanges_ofNat hranges
  rw [mapThrough]
  cases hfind : runs.find? (fun r => r.contains n) with
  | none => exact hn
  | some r =>
    rw [inRanges, List.any_eq_false]
    intro q hq
    have hr : r ∈ runs := List.mem_of_find?_eq_some hfind
    have hcontains := List.find?_some (p := fun r : CaseRun => r.contains n) hfind
    have hapart := List.all_eq_true.1 (List.all_eq_true.1 h r hr) q hq
    have hstart := hranges q hq
    simp only [CaseRun.contains, Bool.and_eq_true, Bool.or_eq_true, decide_eq_true_eq]
      at hcontains hapart ⊢
    omega

end Ranges

theorem markRanges_ascii : ∀ q ∈ markRanges, 0 < q.1 ∧ q.2 < 0x80 := by decide

theorem isMark_mapThrough {runs : List CaseRun} (h : mapOutside markRanges runs = true) {n : Nat}
    (hn : 0x80 ≤ n) : isMark (Char.ofNat (mapThrough runs n)) = false := by
  rw [isMark_eq, inRanges_mapThrough (fun q hq => (markRanges_ascii q hq).1) h
    (inRanges_of_not_ascii markRanges_ascii hn)]

theorem caseTables_areMarkFree :
    mapOutside markRanges lowerRuns = true ∧ mapOutside markRanges upperRuns = true ∧
      (upperExpansions.all fun e =>
        !e.2.isEmpty && e.2.all fun n => !isMark (Char.ofNat n)) = true := by decide +kernel

/-- What a character becomes in another case, as far as codes are concerned: marks go through `f`,
and everything else becomes something in which no code begins or goes on. -/
structure KeepsMarks (isLead' : Char → Bool) (f : Char → Char) (c : Char) (form : List Char) :
    Prop where
  ne_nil : form ≠ []
  isLead : ∀ d ∈ form, isLead' d = Command.isLead c
  isDigit : ∀ d ∈ form, d.isDigit = c.isDigit
  ofMark : isMark c = true → form = [f c]

section Forms

variable {isLead' : Char → Bool} {f : Char → Char} {c : Char}

theorem keepsMarks_of_mark (hlead : isLead' (f c) = Command.isLead c)
    (hdigit : (f c).isDigit = c.isDigit) : KeepsMarks isLead' f c [f c] where
  ne_nil := List.cons_ne_nil _ _
  isLead d hd := by rw [List.mem_singleton.1 hd, hlead]
  isDigit d hd := by rw [List.mem_singleton.1 hd, hdigit]
  ofMark _ := rfl

theorem keepsMarks_of_not_mark {form : List Char} (hc : isMark c = false) (hne : form ≠ [])
    (hlead : ∀ d, isLead' d = true → Command.isLead d = true)
    (hform : ∀ d ∈ form, isMark d = false) : KeepsMarks isLead' f c form := by
  rw [isMark, Bool.or_eq_false_iff] at hc
  refine ⟨hne, ?_, ?_, ?_⟩
  · intro d hd
    have hd' := hform d hd
    rw [isMark, Bool.or_eq_false_iff] at hd'
    rw [hc.2]
    exact Bool.eq_false_iff.2 fun h => Bool.eq_false_iff.1 hd'.2 (hlead d h)
  · intro d hd
    have hd' := hform d hd
    rw [isMark, Bool.or_eq_false_iff] at hd'
    rw [hc.1, hd'.1]
  · intro hmark
    rw [isMark, hc.1, hc.2] at hmark
    cases hmark

theorem forall_ascii {p : Char → Prop} (h : ∀ n < 0x80, p (Char.ofNat n))
    (hc : c.toNat < 0x80) : p c := by
  have hchar := h c.toNat hc
  rwa [Char.ofNat_toNat] at hchar

theorem isMark_of_not_ascii (hc : 0x80 ≤ c.toNat) : isMark c = false := by
  rw [isMark_eq, inRanges_of_not_ascii markRanges_ascii hc]

theorem isLead_of_isLowerLead (d : Char) (h : Command.isLowerLead d = true) :
    Command.isLead d = true := by
  rw [Command.isLead, h, Bool.or_true]

theorem isLead_of_isUpperLead (d : Char) (h : Command.isUpperLead d = true) :
    Command.isLead d = true := by
  rw [Command.isLead, h, Bool.true_or]

theorem keepsMarks_lowerChar (c : Char) :
    KeepsMarks Command.isLowerLead Char.toLower c (lowerChar c) := by
  by_cases hc : c.toNat < 0x80
  · have hascii : ∀ n < 0x80, Command.isLowerLead (Char.ofNat n).toLower =
        Command.isLead (Char.ofNat n) := by decide +kernel
    rw [lowerChar_of_ascii hc]
    have hlead := forall_ascii (p := fun c => Command.isLowerLead c.toLower = Command.isLead c)
      hascii hc
    exact keepsMarks_of_mark hlead (isDigit_toLower c)
  · have hc' : 0x80 ≤ c.toNat := Nat.le_of_not_lt hc
    refine keepsMarks_of_not_mark (isMark_of_not_ascii hc') ?_ isLead_of_isLowerLead ?_
    · unfold lowerChar
      split_ifs <;> exact List.cons_ne_nil _ _
    · intro d hd
      rw [lowerChar, if_neg hc] at hd
      split_ifs at hd
      · have hdotted : (['i', '\u0307'].all fun d => !isMark d) = true := by decide
        simpa using List.all_eq_true.1 hdotted d hd
      · rw [List.mem_singleton.1 hd]
        exact isMark_mapThrough caseTables_areMarkFree.1 hc'

theorem keepsMarks_upperChar (c : Char) :
    KeepsMarks Command.isUpperLead Char.toUpper c (upperChar c) := by
  by_cases hc : c.toNat < 0x80
  · have hascii : ∀ n < 0x80, Command.isUpperLead (Char.ofNat n).toUpper =
        Command.isLead (Char.ofNat n) ∧ (Char.ofNat n).toUpper.isDigit = (Char.ofNat n).isDigit := by
      decide +kernel
    have hboth := forall_ascii (p := fun c => Command.isUpperLead c.toUpper = Command.isLead c ∧
      c.toUpper.isDigit = c.isDigit) hascii hc
    rw [upperChar_of_ascii hc]
    exact keepsMarks_of_mark hboth.1 hboth.2
  · have hc' : 0x80 ≤ c.toNat := Nat.le_of_not_lt hc
    have hmark := isMark_of_not_ascii hc'
    rw [upperChar, if_neg hc]
    cases hlookup : upperExpansions.lookup c.toNat with
    | none =>
      refine keepsMarks_of_not_mark hmark (List.cons_ne_nil _ _) isLead_of_isUpperLead ?_
      intro d hd
      rw [List.mem_singleton.1 hd]
      exact isMark_mapThrough caseTables_areMarkFree.2.1 hc'
    | some expansion =>
      have hmem : (c.toNat, expansion) ∈ upperExpansions := by
        obtain ⟨l₁, l₂, h, -⟩ := List.lookup_eq_some_iff.1 hlookup
        rw [h]
        simp
      have hfree := List.all_eq_true.1 caseTables_areMarkFree.2.2 _ hmem
      simp only [Bool.and_eq_true, Bool.not_eq_true', List.isEmpty_eq_false_iff,
        List.all_eq_true] at hfree
      refine keepsMarks_of_not_mark hmark (by simpa using hfree.1) isLead_of_isUpperLead ?_
      intro d hd
      obtain ⟨n, hn, rfl⟩ := List.mem_map.1 hd
      exact hfree.2 n hn

end Forms

/-- What each character of a text becomes in lower case, where `before`, read backwards, precedes
the text. -/
def lowerFormsAfter (before : List Char) : List Char → List (List Char)
  | [] => []
  | c :: rest =>
    (if c = 'Σ' then [sigmaForm before rest] else lowerChar c) :: lowerFormsAfter (c :: before) rest

/-- What each character of a text becomes in lower case. -/
def lowerForms (s : List Char) : List (List Char) := lowerFormsAfter [] s

def upperForms (s : List Char) : List (List Char) := s.map upperChar

theorem flatten_lowerFormsAfter (before s : List Char) :
    (lowerFormsAfter before s).flatten = lowerAfter before s := by
  induction s generalizing before with
  | nil => rfl
  | cons c rest ih => rw [lowerFormsAfter, lowerAfter, List.flatten_cons, ih]

theorem flatten_lowerForms (s : List Char) : (lowerForms s).flatten = lower s :=
  flatten_lowerFormsAfter [] s

theorem flatten_upperForms (s : List Char) : (upperForms s).flatten = upper s := rfl

theorem forall₂_lowerFormsAfter (before s : List Char) :
    List.Forall₂ (KeepsMarks Command.isLowerLead Char.toLower) s (lowerFormsAfter before s) := by
  induction s generalizing before with
  | nil => exact .nil
  | cons c rest ih =>
    refine .cons ?_ (ih (c :: before))
    split_ifs with hc
    · refine keepsMarks_of_not_mark (by rw [hc]; decide) (List.cons_ne_nil _ _)
        isLead_of_isLowerLead ?_
      intro d hd
      rw [List.mem_singleton.1 hd, sigmaForm]
      split_ifs <;> decide
    · exact keepsMarks_lowerChar c

theorem forall₂_upperForms (s : List Char) :
    List.Forall₂ (KeepsMarks Command.isUpperLead Char.toUpper) s (upperForms s) := by
  induction s with
  | nil => exact .nil
  | cons c rest ih => exact .cons (keepsMarks_upperChar c) ih

end Text

namespace Command

open Text (IsFirstMatch HasMatch KeepsMarks)

section Forms

variable {isLead' : Char → Bool} {f : Char → Char} {s : List Char} {forms : List (List Char)}

theorem takeWhile_flatten (h : List.Forall₂ (KeepsMarks isLead' f) s forms) :
    forms.flatten.takeWhile Char.isDigit = (s.takeWhile Char.isDigit).map f := by
  induction h with
  | nil => rfl
  | @cons c form s forms hc _ ih =>
    rw [List.flatten_cons]
    cases hdigit : c.isDigit with
    | true =>
      have hform : form = [f c] := hc.ofMark (by rw [Text.isMark, hdigit, Bool.true_or])
      have hf : (f c).isDigit = true := by rw [hc.isDigit _ (by rw [hform]; simp), hdigit]
      rw [hform, List.singleton_append, List.takeWhile_cons_of_pos hf,
        List.takeWhile_cons_of_pos hdigit, ih, List.map_cons]
    | false =>
      obtain ⟨d, rest, rfl⟩ := List.exists_cons_of_ne_nil hc.ne_nil
      have hd : d.isDigit = false := by rw [hc.isDigit d List.mem_cons_self, hdigit]
      rw [List.cons_append, List.takeWhile_cons_of_neg (by simp [hd]),
        List.takeWhile_cons_of_neg (by simp [hdigit])]
      rfl

theorem dropWhile_flatten (h : List.Forall₂ (KeepsMarks isLead' f) s forms) :
    forms.flatten.dropWhile Char.isDigit =
      (forms.drop (s.takeWhile Char.isDigit).length).flatten := by
  induction h with
  | nil => rfl
  | @cons c form s forms hc _ ih =>
    rw [List.flatten_cons]
    cases hdigit : c.isDigit with
    | true =>
      have hform : form = [f c] := hc.ofMark (by rw [Text.isMark, hdigit, Bool.true_or])
      have hf : (f c).isDigit = true := by rw [hc.isDigit _ (by rw [hform]; simp), hdigit]
      rw [hform, List.singleton_append, List.dropWhile_cons_of_pos hf,
        List.takeWhile_cons_of_pos hdigit, ih]
      rfl
    | false =>
      obtain ⟨d, rest, rfl⟩ := List.exists_cons_of_ne_nil hc.ne_nil
      have hd : d.isDigit = false := by rw [hc.isDigit d List.mem_cons_self, hdigit]
      rw [List.cons_append, List.dropWhile_cons_of_neg (by simp [hd]),
        List.takeWhile_cons_of_neg (by simp [hdigit])]
      rfl

theorem splitCode?_append {isLead : Char → Bool} {form : List Char}
    (h : ∀ d ∈ form, isLead d = false) (t : List Char) :
    splitCode? isLead (form ++ t) =
      (splitCode? isLead t).map fun split => (form ++ split.1, split.2) := by
  induction form with
  | nil => simp
  | cons d form ih =>
    have hd : isLead d = false := h d List.mem_cons_self
    rw [List.cons_append, splitCode?_cons, hd, Bool.false_and, if_neg Bool.false_ne_true,
      ih fun d hd => h d (List.mem_cons_of_mem _ hd), Option.map_map]
    rfl

/-- A text and its form in another case are split at the same place. -/
theorem splitCode?_flatten (h : List.Forall₂ (KeepsMarks isLead' f) s forms) :
    splitCode? isLead' forms.flatten = (splitCode? isLead s).map fun split =>
      ((forms.take split.1.length).flatten, split.2.1.map f,
        (forms.drop (split.1.length + split.2.1.length)).flatten) := by
  induction h with
  | nil => rfl
  | @cons c form s forms hc hrest ih =>
    rw [List.flatten_cons, splitCode?_cons]
    cases hcode : isLead c && !(s.takeWhile Char.isDigit).isEmpty with
    | true =>
      rw [Bool.and_eq_true] at hcode
      have hform : form = [f c] := hc.ofMark (by rw [Text.isMark, hcode.1, Bool.or_true])
      have hf : isLead' (f c) = true := by rw [hc.isLead _ (by rw [hform]; simp), hcode.1]
      rw [hform, List.singleton_append, splitCode?_cons, takeWhile_flatten hrest,
        dropWhile_flatten hrest, hf, List.isEmpty_map, hcode.2]
      simp
    | false =>
      have hskip : splitCode? isLead' (form ++ forms.flatten) =
          (splitCode? isLead' forms.flatten).map fun split => (form ++ split.1, split.2) := by
        cases hlead : isLead c with
        | false =>
          refine splitCode?_append ?_ _
          intro d hd
          rw [hc.isLead d hd, hlead]
        | true =>
          have hform : form = [f c] := hc.ofMark (by rw [Text.isMark, hlead, Bool.or_true])
          rw [hlead, Bool.true_and] at hcode
          rw [hform, List.singleton_append, splitCode?_cons, takeWhile_flatten hrest,
            List.isEmpty_map, hcode, Bool.and_false]
          rfl
      rw [hskip, ih, if_neg Bool.false_ne_true, Option.map_map, Option.map_map]
      congr 1
      funext split
      have hlength := Nat.add_right_comm split.1.length 1 split.2.1.length
      simp only [Function.comp, List.length_cons, hlength, List.take_succ_cons,
        List.drop_succ_cons, List.flatten_cons]

end Forms

theorem splitCode?_upper (s : List Char) :
    splitCode? isUpperLead (Text.upper s) = (splitCode? isLead s).map fun split =>
      (Text.upper split.1, split.2.1.map Char.toUpper, Text.upper split.2.2) := by
  rw [← Text.flatten_upperForms, splitCode?_flatten (Text.forall₂_upperForms s)]
  cases hsplit : splitCode? isLead s with
  | none => rfl
  | some split =>
    have hparts : s = split.1 ++ split.2.1 ++ split.2.2 := eq_append_of_splitCode? hsplit
    have hlength : split.1.length + split.2.1.length = (split.1 ++ split.2.1).length :=
      List.length_append.symm
    simp only [Option.map_some, Text.upperForms, ← List.map_take, ← List.map_drop, hlength]
    rw [hparts, List.drop_left, List.append_assoc, List.take_left]
    rfl

theorem splitCode?_lower (s : List Char) :
    splitCode? isLowerLead (Text.lower s) = (splitCode? isLead s).map fun split =>
      (((Text.lowerForms s).take split.1.length).flatten, split.2.1.map Char.toLower,
        ((Text.lowerForms s).drop (split.1.length + split.2.1.length)).flatten) := by
  rw [← Text.flatten_lowerForms]
  exact splitCode?_flatten (Text.forall₂_lowerFormsAfter [] s)

end Command

namespace Record

/-- The text of a line before its first semicolon. -/
def instructionOf (line : String) : List Char := line.toList.takeWhile (· != ';')

theorem splitComment_fst (s : List Char) : (splitComment s).1 = s.takeWhile (· != ';') := by
  unfold splitComment Text.splitFirst?
  cases hrest : s.dropWhile (· != ';') with
  | nil =>
    have hall : s.takeWhile (· != ';') ++ s.dropWhile (· != ';') = s :=
      List.takeWhile_append_dropWhile
    rw [hrest, List.append_nil] at hall
    exact hall.symm
  | cons c rest => rfl

theorem command_ofLine (line : String) :
    (ofLine line).command = Command.ofInstruction? (instructionOf line) := by
  rw [instructionOf, ← splitComment_fst]
  rfl

theorem words_ofLine (line : String) :
    (ofLine line).words = Words.ofText (Command.argumentText (instructionOf line)) := by
  rw [instructionOf, ← splitComment_fst]
  rfl

end Record

namespace Command

open Text (IsFirstMatch HasMatch)
open Record (instructionOf)

/-- A line has a command if and only if there is a code in the upper-case form of its instruction,
and then there is one in the lower-case form and in the instruction itself. The code that is taken
out of the lower-case form is that of the command in lower case, and what stays is what the other
characters of the instruction become, before and behind the one code that both come from. -/
theorem reported_code_is_removed (line : String) :
    ((Record.ofLine line).command.isSome = true ↔
      HasMatch (IsCode isUpperLead) (Text.upper (instructionOf line))) ∧
    (HasMatch (IsCode isUpperLead) (Text.upper (instructionOf line)) ↔
      HasMatch (IsCode isLowerLead) (Text.lower (instructionOf line))) ∧
    (HasMatch (IsCode isLowerLead) (Text.lower (instructionOf line)) ↔
      HasMatch (IsCode isLead) (instructionOf line)) ∧
    ((Record.ofLine line).command = none →
      (Record.ofLine line).words = Words.ofText (Text.lower (instructionOf line))) ∧
    ∀ command, (Record.ofLine line).command = some command →
      ∃ before code after before' after',
        IsFirstMatch (IsCode isLead) (instructionOf line) before code after ∧
        command.code.toList = code.map Char.toUpper ∧
        IsFirstMatch (IsCode isUpperLead) (Text.upper (instructionOf line)) (Text.upper before)
          command.code.toList (Text.upper after) ∧
        IsFirstMatch (IsCode isLowerLead) (Text.lower (instructionOf line)) before'
          (command.code.toList.map Char.toLower) after' ∧
        before' = ((Text.lowerForms (instructionOf line)).take before.length).flatten ∧
        after' =
          ((Text.lowerForms (instructionOf line)).drop (before.length + code.length)).flatten ∧
        (Record.ofLine line).words = Words.ofText (before' ++ after') := by
  rw [Record.command_ofLine, Record.words_ofLine]
  generalize instructionOf line = instruction
  have hupper := splitCode?_upper instruction
  have hlower := splitCode?_lower instruction
  cases hsplit : splitCode? isLead instruction with
  | none =>
    rw [hsplit, Option.map_none] at hupper hlower
    have hnone : ofInstruction? instruction = none := by
      rw [ofInstruction?, hupper]
      rfl
    have htext : argumentText instruction = Text.lower instruction := by
      rw [argumentText, hlower]
    rw [splitCode?_eq_none_iff] at hsplit hupper hlower
    refine ⟨?_, iff_of_false hupper hlower, iff_of_false hlower hsplit, ?_, ?_⟩
    · rw [hnone]
      exact iff_of_false Bool.false_ne_true hupper
    · intro _
      rw [htext]
    · intro command hsome
      rw [hnone] at hsome
      cases hsome
  | some split =>
    obtain ⟨before, code, after⟩ := split
    rw [hsplit, Option.map_some] at hupper hlower
    have hsome : ofInstruction? instruction =
        some (ofCode (String.ofList (code.map Char.toUpper))) := by
      rw [ofInstruction?, hupper]
      rfl
    have htext : argumentText instruction =
        ((Text.lowerForms instruction).take before.length).flatten ++
          ((Text.lowerForms instruction).drop (before.length + code.length)).flatten := by
      rw [argumentText, hlower]
    rw [splitCode?_eq_some_iff] at hsplit hupper hlower
    refine ⟨?_, iff_of_true hupper.hasMatch hlower.hasMatch,
      iff_of_true hlower.hasMatch hsplit.hasMatch, ?_, ?_⟩
    · rw [hsome]
      exact iff_of_true rfl hupper.hasMatch
    · intro hnone
      rw [hsome] at hnone
      cases hnone
    · intro command hcommand
      rw [hsome, Option.some.injEq] at hcommand
      have hcode : command.code.toList = code.map Char.toUpper := by
        rw [← hcommand, code_ofCode, String.toList_ofList]
      have hcase : (code.map Char.toUpper).map Char.toLower = code.map Char.toLower := by
        rw [List.map_map]
        exact List.map_congr_left fun c _ => Char.toLower_toUpper_eq_toLower c
      refine ⟨before, code, after, _, _, hsplit, hcode, ?_, ?_, rfl, rfl, ?_⟩
      · rw [hcode]
        exact hupper
      · rw [hcode, hcase]
        exact hlower
      · rw [htext]

end Command

end Toolpath
