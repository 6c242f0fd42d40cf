import Toolpath.Decimal.Numeral
import Toolpath.Record
import Toolpath.Text.Blank
import Toolpath.Text.Case

/-!
# Command and words of an instruction

The command of an instruction is the first `G` or `M` with a digit behind it, with all the digits
that follow. Once this code is taken out, every letter is looked for on its own: its word has the
number behind the first occurrence that a number follows, after any blanks, and none if no
occurrence is followed by one. So letters never use up each other's text.
-/

namespace Toolpath

namespace Command

/-- The text before, in and behind the first code: a lead character and the digits after it, of
which there is at least one. -/
def splitCode? (isLead : Char → Bool) :
    List Char → Option (List Char × List Char × List Char)
  | [] => none
  | c :: rest =>
    let digits := rest.takeWhile Char.isDigit
    if isLead c && !digits.isEmpty then some ([], c :: digits, rest.dropWhile Char.isDigit)
    else (splitCode? isLead rest).map fun (before, code, after) => (c :: before, code, after)

def isUpperLead (c : Char) : Bool := c == 'G' || c == 'M'

def isLowerLead (c : Char) : Bool := c == 'g' || c == 'm'

/-- The command of an instruction, read in upper case. -/
def ofInstruction? (instruction : List Char) : Option Command :=
  (splitCode? isUpperLead (Text.upper instruction)).map fun (_, code, _) =>
    ofCode (String.ofList code)

/-- The instruction in lower case without its command code. -/
def argumentText (instruction : List Char) : List Char :=
  let lowered := Text.lower instruction
  match splitCode? isLowerLead lowered with
  | some (before, _, after) => before ++ after
  | none => lowered

/-- Taking out the code loses nothing else. -/
theorem eq_append_of_splitCode? {isLead : Char → Bool} {s before code after : List Char}
    (h : splitCode? isLead s = some (before, code, after)) : s = before ++ code ++ after := by
  induction s generalizing before with
  | nil => simp [splitCode?] at h
  | cons c rest ih =>
    simp only [splitCode?] at h
    split at h
    · simp only [Option.some.injEq, Prod.mk.injEq] at h
      obtain ⟨rfl, rfl, rfl⟩ := h
      simp [List.takeWhile_append_dropWhile]
    · simp only [Option.map_eq_some_iff, Prod.exists, Prod.mk.injEq] at h
      obtain ⟨before', _, _, h, rfl, rfl, rfl⟩ := h
      simp [ih h]

end Command

namespace Words

/-- The numeral behind the first occurrence of `letter` that has one, blanks left out. -/
def numeralAfter? (letter : Char) : List Char → Option Numeral
  | [] => none
  | c :: rest =>
    if c = letter then
      match Numeral.ofStart? (Text.trimStart rest) with
      | some numeral => some numeral
      | none => numeralAfter? letter rest
    else numeralAfter? letter rest

def wordOf? (text : List Char) (letter : Char) : Option Word :=
  match numeralAfter? letter text with
  | some numeral => some (.number numeral.toFloat)
  | none => if letter ∈ text then some .flag else none

def letters : List Char := (List.range 26).map fun k => Char.ofNat (0x61 + k)

def ofText (text : List Char) : Words :=
  Std.ExtTreeMap.ofList (letters.filterMap fun letter =>
    (wordOf? text letter).map fun word => (letter, word))

theorem numeralAfter?_eq_none_of_not_mem {letter : Char} {text : List Char} (h : letter ∉ text) :
    numeralAfter? letter text = none := by
  induction text with
  | nil => rfl
  | cons c rest ih =>
    simp only [List.mem_cons, not_or] at h
    simp [numeralAfter?, Ne.symm h.1, ih h.2]

theorem wordOf?_eq_none_iff {letter : Char} {text : List Char} :
    wordOf? text letter = none ↔ letter ∉ text := by
  constructor
  · intro h hm
    unfold wordOf? at h
    split at h <;> simp_all
  · intro h
    simp [wordOf?, numeralAfter?_eq_none_of_not_mem h, h]

end Words

end Toolpath
