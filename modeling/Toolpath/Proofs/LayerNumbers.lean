import Toolpath.Machine
import Toolpath.Proofs.Encoding
import Toolpath.Proofs.WordCharacters

/-!
# The number of a layer text

A text of a layer tag says the integer that it starts with if that is one of 64 bits. Otherwise it
says nothing, and its record does what it does without the tag. The integer may also be cut out at
byte offsets and read with a check of its range at every digit. Nothing is cut inside a character,
as signs and digits have one byte each, and no byte of any other character is a digit.
-/

namespace Toolpath

namespace Text

/-- What comes before a byte offset, unless the offset is past the end or inside a character. -/
def sliceTo? (s : String) (offset : Nat) : Option String :=
  if h : String.Pos.Raw.IsValid s ⟨offset⟩ then some (s.sliceTo (s.pos _ h)).copy else none

/-- What comes behind a byte offset, unless the offset is past the end or inside a character. -/
def sliceFrom? (s : String) (offset : Nat) : Option String :=
  if h : String.Pos.Raw.IsValid s ⟨offset⟩ then some (s.sliceFrom (s.pos _ h)).copy else none

theorem utf8ByteSize_of_ascii {s : List Char} (h : ∀ c ∈ s, c.toNat < 0x80) :
    (String.ofList s).utf8ByteSize = s.length := by
  rw [String.utf8ByteSize_ofList]
  induction s with
  | nil => rfl
  | cons c s ih =>
    have hsize : c.utf8Size = 1 :=
      Char.utf8Size_eq_one_iff.2 (Nat.le_of_lt_succ (h c List.mem_cons_self))
    rw [String.utf8Len_cons, hsize, ih fun d hd => h d (List.mem_cons_of_mem c hd)]
    rfl

section Slices

variable {before : List Char} (h : ∀ c ∈ before, c.toNat < 0x80) (after : List Char)

include h

theorem rawEndPos_of_ascii :
    (⟨before.length⟩ : String.Pos.Raw) = (String.ofList before).rawEndPos :=
  congrArg String.Pos.Raw.mk (utf8ByteSize_of_ascii h).symm

theorem isValid_length :
    String.Pos.Raw.IsValid (String.ofList (before ++ after)) ⟨before.length⟩ :=
  String.Pos.Raw.isValid_iff_exists_append.2
    ⟨_, _, String.ofList_append, rawEndPos_of_ascii h⟩

theorem sliceTo?_length :
    sliceTo? (String.ofList (before ++ after)) before.length = some (String.ofList before) := by
  rw [sliceTo?, dif_pos (isValid_length h after)]
  exact congrArg some
    (String.Pos.Splits.copy_sliceTo_eq ⟨String.ofList_append, rawEndPos_of_ascii h⟩)

theorem sliceFrom?_length :
    sliceFrom? (String.ofList (before ++ after)) before.length = some (String.ofList after) := by
  rw [sliceFrom?, dif_pos (isValid_length h after)]
  exact congrArg some
    (String.Pos.Splits.copy_sliceFrom_eq ⟨String.ofList_append, rawEndPos_of_ascii h⟩)

end Slices

/-- A byte that is a digit in ASCII. -/
def isDigitByte (b : UInt8) : Bool := 0x30 ≤ b && b ≤ 0x39

theorem isDigitByte_ofNat {n : Nat} (h : n < 0x100) :
    isDigitByte (UInt8.ofNat n) = true ↔ 48 ≤ n ∧ n ≤ 57 := by
  have hn : (UInt8.ofNat n).toNat = n := UInt8.toNat_ofNat_of_lt' h
  rw [isDigitByte, Bool.and_eq_true, decide_eq_true_iff, decide_eq_true_iff,
    UInt8.le_iff_toNat_le, UInt8.le_iff_toNat_le, hn]
  rfl

/-- A digit is one byte, and no other character starts with such a byte. -/
theorem utf8EncodeChar_cases (c : Char) :
    (c.isDigit = true ∧ ∃ b, isDigitByte b = true ∧ String.utf8EncodeChar c = [b]) ∨
      (c.isDigit = false ∧
        ∃ b bytes, isDigitByte b = false ∧ String.utf8EncodeChar c = b :: bytes) := by
  have hlead : ∀ n, 0xC0 ≤ n → n < 0x100 → isDigitByte (UInt8.ofNat n) = false := by
    intro n hlow hhigh
    rw [Bool.eq_false_iff, ne_eq, isDigitByte_ofNat hhigh]
    omega
  rw [Utf8State.utf8EncodeChar_eq]
  by_cases hascii : c.toNat ≤ 0x7F
  · have hbyte := isDigitByte_ofNat (Nat.lt_of_le_of_lt hascii (by decide))
    rw [← isDigit_iff] at hbyte
    rw [if_pos hascii]
    cases hc : c.isDigit with
    | true => exact .inl ⟨rfl, _, hbyte.2 hc, rfl⟩
    | false =>
      refine .inr ⟨rfl, _, [], ?_, rfl⟩
      rw [Bool.eq_false_iff, ne_eq, hbyte, hc]
      exact Bool.false_ne_true
  · have hc : c.isDigit = false := by
      rw [Bool.eq_false_iff, ne_eq, isDigit_iff]
      omega
    rw [if_neg hascii]
    split
    · exact .inr ⟨hc, _, _, hlead _ (by omega) (by omega), rfl⟩
    · split
      · exact .inr ⟨hc, _, _, hlead _ (by omega) (by omega), rfl⟩
      · exact .inr ⟨hc, _, _, hlead _ (by omega) (by omega), rfl⟩

/-- Digits among the bytes are digits among the characters. -/
theorem length_takeWhile_encode (s : List Char) :
    ((encode s).takeWhile isDigitByte).length = (s.takeWhile Char.isDigit).length := by
  induction s with
  | nil => rfl
  | cons c s ih =>
    rw [encode_cons]
    obtain ⟨hc, b, hb, hbytes⟩ | ⟨hc, b, bytes, hb, hbytes⟩ := utf8EncodeChar_cases c
    · rw [hbytes, List.singleton_append, List.takeWhile_cons_of_pos hb,
        List.takeWhile_cons_of_pos hc, List.length_cons, ih, List.length_cons]
    · rw [hbytes, List.cons_append, List.takeWhile_cons_of_neg (ne_true_of_eq_false hb),
        List.takeWhile_cons_of_neg (ne_true_of_eq_false hc)]
      rfl

end Text

namespace Numeral

/-- A sign or none. -/
def IsSign (sign : List Char) : Prop := sign = [] ∨ sign = ['+'] ∨ sign = ['-']

/-- How many bytes a text has for its sign. -/
def signSize : List Char → Nat
  | '+' :: _ | '-' :: _ => 1
  | _ => 0

theorem exists_sign (s : List Char) :
    ∃ sign, IsSign sign ∧ s = sign ++ (splitSign s).2 ∧ (splitSign s).1 = (sign == ['-']) ∧
      signSize s = sign.length := by
  obtain ⟨c, rest, rfl, hc, hsplit⟩ | ⟨hsplit, -, hnone⟩ := splitSign_cases s
  · rw [hsplit]
    obtain rfl | rfl := hc
    · exact ⟨['+'], .inr (.inl rfl), rfl, rfl, rfl⟩
    · exact ⟨['-'], .inr (.inr rfl), rfl, rfl, rfl⟩
  · rw [hsplit]
    refine ⟨[], .inl rfl, rfl, rfl, ?_⟩
    unfold signSize
    split
    · exact absurd (.inl rfl) (hnone _ _ rfl)
    · exact absurd (.inr rfl) (hnone _ _ rfl)
    · rfl

theorem splitSign_append {sign s : List Char} (h : IsSign sign)
    (hs : ∀ c ∈ s.head?, c.isDigit = true) : splitSign (sign ++ s) = (sign == ['-'], s) := by
  obtain rfl | rfl | rfl := h
  · cases s with
    | nil => rfl
    | cons c s =>
      have hc := hs c rfl
      refine splitSign_cons_of_ne s ?_ ?_ <;>
        · rintro rfl
          cases hc
  · rfl
  · rfl

theorem IsSign.forall_mem {sign : List Char} (h : IsSign sign) {P : Char → Prop} (hplus : P '+')
    (hminus : P '-') : ∀ c ∈ sign, P c := by
  obtain rfl | rfl | rfl := h
  · exact fun c hc => nomatch hc
  · exact List.forall_mem_singleton.2 hplus
  · exact List.forall_mem_singleton.2 hminus

end Numeral

namespace Layer

/-- Digits as an integer of either sign. -/
def signed (negative : Bool) (size : Nat) : Int := if negative then -size else size

theorem ten_mul_signed (negative : Bool) (size : Nat) :
    10 * signed negative size = signed negative (10 * size) := by
  cases negative with
  | true => exact Int.mul_neg _ _
  | false => rfl

theorem signed_add (negative : Bool) (size digit : Nat) :
    (if negative then signed negative size - digit else signed negative size + digit) =
      signed negative (size + digit) := by
  cases negative with
  | true => exact (Int.neg_add).symm
  | false => rfl

theorem integerAtStart?_eq (s : List Char) :
    integerAtStart? s =
      let digits := (Numeral.splitSign s).2.takeWhile Char.isDigit
      if digits.isEmpty then none
      else some (signed (Numeral.splitSign s).1 (Nat.ofDigitChars 10 digits 0)) := by
  rw [integerAtStart?]
  simp only [Digits.decimal_eq_ofDigitChars]
  rfl

/-- Blanks, a sign or none and all the digits that follow, of which there is at least one. -/
structure LeadingInteger where
  blanks : List Char
  sign : List Char
  digits : List Char
  rest : List Char
  isBlank : ∀ c ∈ blanks, Text.isBlank c = true
  isSign : Numeral.IsSign sign
  digits_ne_nil : digits ≠ []
  isDigit : ∀ c ∈ digits, c.isDigit = true
  all_digits : ∀ c ∈ rest.head?, c.isDigit = false

namespace LeadingInteger

variable (p : LeadingInteger)

def text : List Char := p.blanks ++ (p.sign ++ (p.digits ++ p.rest))

def value : Int := signed (p.sign == ['-']) (Nat.ofDigitChars 10 p.digits 0)

theorem isDigit_head : ∀ c ∈ (p.digits ++ p.rest).head?, c.isDigit = true := by
  intro c hc
  rw [List.head?_append_of_ne_nil _ p.digits_ne_nil] at hc
  exact p.isDigit c (List.mem_of_mem_head? hc)

theorem not_isBlank_head :
    ∀ c ∈ (p.sign ++ (p.digits ++ p.rest)).head?, Text.isBlank c = false := by
  intro c hc
  have hsign : ∀ c ∈ p.sign, Text.isBlank c = false := p.isSign.forall_mem rfl rfl
  rw [List.head?_append, Option.mem_def, Option.or_eq_some_iff] at hc
  obtain hc | ⟨-, hc⟩ := hc
  · exact hsign c (List.mem_of_mem_head? hc)
  · rw [Bool.eq_false_iff]
    intro hblank
    have hdigit := p.isDigit_head c hc
    rw [Text.isDigit_of_isBlank hblank] at hdigit
    cases hdigit

theorem integerAtStart?_text : integerAtStart? (Text.trimStart p.text) = some p.value := by
  rw [Text.trimStart, text, dropWhile_of_boundary p.isBlank p.not_isBlank_head,
    integerAtStart?_eq, Numeral.splitSign_append p.isSign p.isDigit_head]
  dsimp only
  rw [takeWhile_of_boundary p.isDigit p.all_digits, if_neg]
  · rfl
  · exact fun hempty => p.digits_ne_nil (List.isEmpty_iff.1 hempty)

end LeadingInteger

theorem integerAtStart?_eq_some_iff {s : List Char} {n : Int} :
    integerAtStart? (Text.trimStart s) = some n ↔
      ∃ p : LeadingInteger, p.text = s ∧ p.value = n := by
  constructor
  · intro h
    obtain ⟨sign, hsign, hparts, hnegative, -⟩ := Numeral.exists_sign (Text.trimStart s)
    rw [integerAtStart?_eq, hnegative, Option.ite_none_left_eq_some] at h
    obtain ⟨hne, hvalue⟩ := h
    let body := (Numeral.splitSign (Text.trimStart s)).2
    refine ⟨{
      blanks := s.takeWhile Text.isBlank
      sign := sign
      digits := body.takeWhile Char.isDigit
      rest := body.dropWhile Char.isDigit
      isBlank := fun c hc => List.mem_takeWhile_imp hc
      isSign := hsign
      digits_ne_nil := List.isEmpty_eq_false_iff.1 (Bool.eq_false_iff.2 hne)
      isDigit := fun c hc => List.mem_takeWhile_imp hc
      all_digits := ?_ }, ?_, Option.some.inj hvalue⟩
    · intro c hc
      have hboundary := List.head?_dropWhile_not Char.isDigit body
      rwa [hc] at hboundary
    · rw [LeadingInteger.text, List.takeWhile_append_dropWhile, ← hparts, Text.trimStart,
        List.takeWhile_append_dropWhile]
  · rintro ⟨p, rfl, rfl⟩
    exact p.integerAtStart?_text

/-- An integer, if it is one of 64 bits. -/
def inRange? (n : Int) : Option Int := if least ≤ n ∧ n ≤ greatest then some n else none

/-- Takes digits into an integer one by one. Reading ends when it leaves the range. -/
def readDigits? (negative : Bool) : Int → List Char → Option Int
  | n, [] => some n
  | n, d :: digits => do
    let digit : Int := ↑(d.toNat - '0'.toNat)
    let shifted ← inRange? (10 * n)
    let next ← inRange? (if negative then shifted - digit else shifted + digit)
    readDigits? negative next digits

/-- The integer that a whole text spells with or without a sign. -/
def ofText? (s : List Char) : Option Int :=
  let (negative, digits) := Numeral.splitSign s
  if digits.isEmpty || !digits.all Char.isDigit then none else readDigits? negative 0 digits

/-- The integer that a text starts with, cut out at byte offsets: behind the sign there are as many
digits as bytes that are digits. There is no result where an offset is not one of the text. -/
def indexByOffsets? (text : String) : Option (Option Int) := do
  let trimmed := String.ofList (Text.trimStart text.toList)
  let start := Numeral.signSize trimmed.toList
  let body ← Text.sliceFrom? trimmed start
  let count := ((Text.encode body.toList).takeWhile Text.isDigitByte).length
  if count = 0 then
    return none
  let number ← Text.sliceTo? trimmed (start + count)
  return ofText? number.toList

theorem le_ofDigitChars (digits : List Char) (size : Nat) :
    size ≤ Nat.ofDigitChars 10 digits size := by
  induction digits generalizing size with
  | nil => exact Nat.ofDigitChars_nil.ge
  | cons d digits ih =>
    rw [Nat.ofDigitChars_cons]
    exact le_trans (by omega) (ih _)

theorem inRange?_cases (n : Int) : inRange? n = none ∨ inRange? n = some n := by
  by_cases h : least ≤ n ∧ n ≤ greatest
  · exact .inr (if_pos h)
  · exact .inl (if_neg h)

/-- What is out of range on the way is out of range at the end. -/
theorem inRange?_signed_of_le {negative : Bool} {size total : Nat} (h : size ≤ total)
    (hsize : inRange? (signed negative size) = none) : inRange? (signed negative total) = none := by
  have hleast : least ≤ 0 := by decide
  have hgreatest : 0 ≤ greatest := by decide
  rw [inRange?, ite_eq_right_iff] at hsize ⊢
  have hout : ¬ (least ≤ signed negative size ∧ signed negative size ≤ greatest) :=
    fun hin => nomatch hsize hin
  refine fun hin => absurd ?_ hout
  cases negative <;>
    · simp only [signed, Bool.false_eq_true, if_true, if_false] at hin ⊢
      omega

/-- The range can be checked at every digit or once for all of them. -/
theorem readDigits?_signed (negative : Bool) (digits : List Char) {size : Nat}
    (h : inRange? (signed negative size) = some (signed negative size)) :
    readDigits? negative (signed negative size) digits =
      inRange? (signed negative (Nat.ofDigitChars 10 digits size)) := by
  induction digits generalizing size with
  | nil => rw [Nat.ofDigitChars_nil, h, readDigits?]
  | cons d digits ih =>
    let digit : Nat := d.toNat - '0'.toNat
    have hle : 10 * size + digit ≤ Nat.ofDigitChars 10 digits (10 * size + digit) :=
      le_ofDigitChars digits _
    rw [Nat.ofDigitChars_cons, readDigits?, ten_mul_signed]
    obtain hnone | hsome := inRange?_cases (signed negative (10 * size))
    · rw [hnone, inRange?_signed_of_le (le_trans (Nat.le_add_right _ _) hle) hnone]
      rfl
    · rw [hsome]
      change (inRange? (if negative then signed negative (10 * size) - digit
        else signed negative (10 * size) + digit)).bind _ = _
      rw [signed_add]
      obtain hnone | hsome := inRange?_cases (signed negative (10 * size + digit))
      · rw [hnone, inRange?_signed_of_le hle hnone]
        rfl
      · rw [hsome]
        exact ih hsome

theorem ofText?_append {sign digits : List Char} (hsign : Numeral.IsSign sign)
    (hne : digits ≠ []) (hdigits : ∀ c ∈ digits, c.isDigit = true) :
    ofText? (sign ++ digits) =
      inRange? (signed (sign == ['-']) (Nat.ofDigitChars 10 digits 0)) := by
  have hhead : ∀ c ∈ digits.head?, c.isDigit = true :=
    fun c hc => hdigits c (List.mem_of_mem_head? hc)
  have hempty : digits.isEmpty = false := List.isEmpty_eq_false_iff.2 hne
  have hzero : ∀ negative, inRange? (signed negative 0) = some (signed negative 0) := by decide
  have hstart : ∀ negative, signed negative 0 = 0 := by decide
  rw [ofText?, Numeral.splitSign_append hsign hhead]
  simp only [hempty, List.all_eq_true.2 hdigits]
  have hread := readDigits?_signed (sign == ['-']) digits (hzero _)
  rwa [hstart] at hread

theorem index?_text (text : String) :
    index? (.text text) = (integerAtStart? (Text.trimStart text.toList)).bind inRange? := by
  rw [index?]
  cases integerAtStart? (Text.trimStart text.toList) with
  | none => rfl
  | some n =>
    rw [Option.filter_some, Option.bind_some, inRange?]
    simp

theorem indexByOffsets?_eq (text : String) : indexByOffsets? text = some (index? (.text text)) := by
  obtain ⟨sign, hsign, hparts, hnegative, hsize⟩ :=
    Numeral.exists_sign (Text.trimStart text.toList)
  rw [index?_text, integerAtStart?_eq, hnegative]
  generalize (Numeral.splitSign (Text.trimStart text.toList)).2 = body at hparts ⊢
  have hascii : ∀ c ∈ sign, c.toNat < 0x80 := hsign.forall_mem (by decide) (by decide)
  have hbody := Text.sliceFrom?_length hascii body
  have hboth : ∀ c ∈ sign ++ body.takeWhile Char.isDigit, c.toNat < 0x80 := by
    refine List.forall_mem_append.2 ⟨hascii, fun c hc => ?_⟩
    have hdigit := (Text.isDigit_iff c).1 (List.mem_takeWhile_imp hc)
    omega
  have hnumber := Text.sliceTo?_length hboth (body.dropWhile Char.isDigit)
  rw [← hparts] at hbody
  rw [List.append_assoc, List.takeWhile_append_dropWhile, ← hparts, List.length_append] at hnumber
  rw [indexByOffsets?]
  simp only [String.toList_ofList, hsize, hbody, Option.bind_eq_bind, Option.bind_some,
    Text.length_takeWhile_encode, hnumber]
  have hdigits : ∀ c ∈ body.takeWhile Char.isDigit, c.isDigit = true :=
    fun c hc => List.mem_takeWhile_imp hc
  generalize body.takeWhile Char.isDigit = digits at hdigits ⊢
  by_cases hne : digits = []
  · rw [hne]
    rfl
  · rw [if_neg (mt List.length_eq_zero_iff.1 hne), if_neg (mt List.isEmpty_iff.1 hne)]
    exact congrArg some (ofText?_append hsign hne hdigits)

theorem index?_text_eq_some_iff {text : String} {n : Int} :
    index? (.text text) = some n ↔
      ∃ p : LeadingInteger, p.text = text.toList ∧ p.value = n ∧ least ≤ n ∧ n ≤ greatest := by
  rw [index?, Option.filter_eq_some_iff, integerAtStart?_eq_some_iff, Bool.and_eq_true,
    decide_eq_true_iff, decide_eq_true_iff]
  constructor
  · rintro ⟨⟨p, htext, hvalue⟩, hrange⟩
    exact ⟨p, htext, hvalue, hrange⟩
  · rintro ⟨p, htext, hvalue, hrange⟩
    exact ⟨⟨p, htext, hvalue⟩, hrange⟩

theorem index?_text_of_leadingInteger {text : String} (p : LeadingInteger)
    (h : p.text = text.toList) : index? (.text text) = inRange? p.value := by
  rw [index?_text, ← h, p.integerAtStart?_text, Option.bind_some]

end Layer

namespace Record

def withoutLayer (r : Record) : Record := { r with tags := r.tags.erase "layer" }

theorem getElem?_withoutLayer (r : Record) {key : String} (h : key ≠ "layer") :
    r.withoutLayer.tags[key]? = r.tags[key]? := by
  rw [withoutLayer, Std.ExtTreeMap.getElem?_erase, if_neg]
  simpa using Ne.symm h

end Record

/-- A layer tag that says nothing is no different from none. -/
theorem Modal.step_withoutLayer (m : Modal) (r : Record)
    (h : r.tags["layer"]?.bind Layer.index? = none) : m.step r.withoutLayer = m.step r := by
  have hlayer : r.withoutLayer.tags["layer"]? = none := Std.ExtTreeMap.getElem?_erase_self
  have htotal : totalLayersOf? r.withoutLayer.tags = totalLayersOf? r.tags := by
    simp (disch := decide) only [totalLayersOf?, totalLayersKeys, List.findSome?_cons,
      List.findSome?_nil, r.getElem?_withoutLayer]
  simp (disch := decide) only [step, applyTags, applySettings, layerZ?, Record.tagNumber?,
    r.getElem?_withoutLayer, htotal, hlayer, h, Option.bind_none]
  rfl

namespace Layer

/-- A layer text says the integer that it starts with, behind its blanks, whatever comes behind the
digits, and an integer of more than 64 bits or none at all is the same as no tag.

Cutting the integer out at byte offsets always succeeds, and then reading it with a check of its
range at every digit comes to the same. -/
theorem text_says_leading_integer (text : String) :
    (∀ n, index? (.text text) = some n ↔ ∃ p : LeadingInteger,
      p.text = text.toList ∧ p.value = n ∧ -2 ^ 63 ≤ n ∧ n ≤ 2 ^ 63 - 1) ∧
    (∀ p q : LeadingInteger, p.text = text.toList → q.sign = p.sign → q.digits = p.digits →
      index? (.text (String.ofList q.text)) = index? (.text text)) ∧
    indexByOffsets? text = some (index? (.text text)) ∧
    ((¬ ∃ p : LeadingInteger,
        p.text = text.toList ∧ -2 ^ 63 ≤ p.value ∧ p.value ≤ 2 ^ 63 - 1) →
      ∀ (m : Machine) (r : Record), r.tags["layer"]? = some (.text text) →
        m.process r = m.process r.withoutLayer) := by
  refine ⟨fun n => index?_text_eq_some_iff, fun p q htext hsign hdigits => ?_,
    indexByOffsets?_eq text, fun hnone m r htag => ?_⟩
  · have hvalue : q.value = p.value := by
      rw [LeadingInteger.value, LeadingInteger.value, hsign, hdigits]
    rw [index?_text_of_leadingInteger q String.toList_ofList.symm, hvalue,
      index?_text_of_leadingInteger p htext]
  · have hindex : index? (.text text) = none := by
      rw [Option.eq_none_iff_forall_ne_some]
      intro n hn
      obtain ⟨p, htext, rfl, hrange⟩ := index?_text_eq_some_iff.1 hn
      exact hnone ⟨p, htext, hrange⟩
    have hstep : m.modal.step r.withoutLayer = m.modal.step r := by
      refine m.modal.step_withoutLayer r ?_
      rw [htag, Option.bind_some, hindex]
    rw [Machine.process, Machine.process, hstep]

/-- The least integer of 64 bits is read, and the one above the greatest counts for nothing. -/
theorem text_says_leading_integer_limits :
    index? (.text "\u2003-9223372036854775808é") = some (-2 ^ 63) ∧
      let m : Machine := .ofOptions { layerView := true }
      let r : Record := { tags := (∅ : Tags).insert "layer" (.text "+9223372036854775808") }
      m.process r = m.process r.withoutLayer := by
  constructor
  · let p : LeadingInteger := {
      blanks := ['\u2003']
      sign := ['-']
      digits := "9223372036854775808".toList
      rest := ['é']
      isBlank := List.all_eq_true.1 rfl
      isSign := .inr (.inr rfl)
      digits_ne_nil := by decide
      isDigit := List.all_eq_true.1 (by decide)
      all_digits := by
        rintro c ⟨⟩
        rfl }
    exact ((text_says_leading_integer _).1 _).2
      ⟨p, by decide, by decide, by decide, by decide⟩
  · intro m r
    have hnone : index? (.text "+9223372036854775808") = none := by decide +kernel
    obtain ⟨hread, -, -, hprocess⟩ := text_says_leading_integer "+9223372036854775808"
    refine hprocess ?_ m r Std.ExtTreeMap.getElem?_insert_self
    rintro ⟨p, htext, hrange⟩
    have hsome := (hread p.value).2 ⟨p, htext, rfl, hrange⟩
    rw [hnone] at hsome
    cases hsome

end Layer

end Toolpath
