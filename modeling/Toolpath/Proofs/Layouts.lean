import Toolpath.Proofs.WordCharacters

/-!
# Layouts of lines

A command and words can be written on a line in any order, in either case and with any blanks
around them. Every item begins with a letter, so behind the blanks behind an item there is a letter
or the end of the instruction.
-/

namespace Toolpath

abbrev Text.Blanks := { s : List Char // ∀ b ∈ s, Text.isBlank b = true }

namespace Numeral

abbrev Plain := { s : List Char // IsPlain s }

end Numeral

/-- A command code with its lead in either case. -/
structure WrittenCode where
  lead : Char
  digits : List Char
  isLead : Command.isLead lead = true
  ne_nil : digits ≠ []
  isDigit : ∀ d ∈ digits, d.isDigit = true

/-- A letter in either case that leads no code, alone or with a number behind it. -/
structure WrittenWord where
  letter : Char
  number : Option (Text.Blanks × Numeral.Plain)
  isAlpha : letter.isAlpha = true
  not_lead : Command.isLead letter = false

inductive Item where
  | code (code : WrittenCode)
  | word (word : WrittenWord)

namespace WrittenWord

def behind (w : WrittenWord) : List Char :=
  match w.number with
  | some (gap, numeral) => gap ++ numeral
  | none => []

/-- What the word says: its letter in lower case, and its numeral. -/
def entry (w : WrittenWord) : Char × Option Numeral.Plain :=
  (w.letter.toLower, w.number.map Prod.snd)

end WrittenWord

namespace Item

def chars : Item → List Char
  | code c => c.lead :: c.digits
  | word w => w.letter :: w.behind

/-- What is left of an item once the code is taken out, in lower case. -/
def argument : Item → List Char
  | code _ => []
  | word w => w.letter.toLower :: w.behind

def code? : Item → Option (List Char)
  | code c => some (c.lead.toUpper :: c.digits)
  | word _ => none

def word? : Item → Option (Char × Option Numeral.Plain)
  | code _ => none
  | word w => some w.entry

end Item

/-- A line as it is laid out: each item behind its blanks, blanks at the end, and a comment. -/
structure Layout where
  items : List (Text.Blanks × Item)
  ending : Text.Blanks
  comment : Option (List Char)

namespace Layout

open Numeral (Plain)
open Text (IsSimple IsNumeric isNumeric_of_isBlank isNumeric_of_isDigit isNumeric_of_mem_plain
  isSimple_of_isBlank isSimple_of_isAlpha isAlpha_of_isLead map_toLower_of_numeric)

/-- The items one after another, each written by `f` behind its blanks. -/
def spread (f : Item → List Char) (items : List (Text.Blanks × Item)) : List Char :=
  items.flatMap fun p => p.1 ++ f p.2

def instruction (l : Layout) : List Char := spread Item.chars l.items ++ l.ending

def text (l : Layout) : String :=
  String.ofList (l.instruction ++ (l.comment.map fun c => ';' :: c).getD [])

def codes (items : List (Text.Blanks × Item)) : List (List Char) := items.filterMap (·.2.code?)

def entries (items : List (Text.Blanks × Item)) : List (Char × Option Plain) :=
  items.filterMap (·.2.word?)

/-- The line writes this code, if there is one, and these words, each of them once. -/
structure Writes (l : Layout) (code : Option (List Char))
    (words : Std.ExtTreeMap Char (Option Plain)) : Prop where
  codes : codes l.items = code.toList
  words : (entries l.items).Perm words.toList

section Items

theorem isNumeric_of_mem_behind (w : WrittenWord) : ∀ c ∈ w.behind, IsNumeric c := by
  unfold WrittenWord.behind
  cases w.number with
  | none => exact fun c hc => nomatch hc
  | some number =>
    intro c hc
    obtain hc | hc := List.mem_append.1 hc
    · exact isNumeric_of_isBlank (number.1.2 c hc)
    · exact isNumeric_of_mem_plain number.2.2 c hc

theorem isSimple_of_mem_chars (item : Item) : ∀ c ∈ item.chars, IsSimple c := by
  cases item with
  | code code =>
    intro c hc
    obtain rfl | hc := List.mem_cons.1 hc
    · exact isSimple_of_isAlpha (isAlpha_of_isLead code.isLead)
    · exact (isNumeric_of_isDigit (code.isDigit c hc)).simple
  | word w =>
    intro c hc
    obtain rfl | hc := List.mem_cons.1 hc
    · exact isSimple_of_isAlpha w.isAlpha
    · exact (isNumeric_of_mem_behind w c hc).simple

theorem chars_head (item : Item) : ∀ c ∈ item.chars.head?, c.isAlpha = true := by
  cases item with
  | code code =>
    rintro c ⟨⟩
    exact isAlpha_of_isLead code.isLead
  | word w =>
    rintro c ⟨⟩
    exact w.isAlpha

theorem argument_head (item : Item) : ∀ c ∈ item.argument.head?, c.isAlpha = true := by
  cases item with
  | code code => exact fun c hc => nomatch hc
  | word w =>
    rintro c ⟨⟩
    rw [Char.isAlpha_toLower_eq_isAlpha]
    exact w.isAlpha

theorem not_lead_of_mem_chars {item : Item} (h : item.code? = none) :
    ∀ c ∈ item.chars, Command.isLead c = false := by
  cases item with
  | code code => cases h
  | word w =>
    intro c hc
    obtain rfl | hc := List.mem_cons.1 hc
    · exact w.not_lead
    · exact (isNumeric_of_mem_behind w c hc).not_lead

theorem map_toLower_blanks (b : Text.Blanks) : b.1.map Char.toLower = b :=
  map_toLower_of_numeric fun c hc => isNumeric_of_isBlank (b.2 c hc)

theorem map_toLower_chars {item : Item} (h : item.code? = none) :
    item.chars.map Char.toLower = item.argument := by
  cases item with
  | code code => cases h
  | word w => rw [Item.chars, List.map_cons, map_toLower_of_numeric (isNumeric_of_mem_behind w)]; rfl

end Items

section Spread

variable {f : Item → List Char} {items : List (Text.Blanks × Item)}

theorem spread_cons (f : Item → List Char) (p : Text.Blanks × Item)
    (items : List (Text.Blanks × Item)) : spread f (p :: items) = p.1 ++ f p.2 ++ spread f items :=
  rfl

theorem spread_append (f : Item → List Char) (items items' : List (Text.Blanks × Item)) :
    spread f (items ++ items') = spread f items ++ spread f items' := List.flatMap_append

/-- Behind the blanks that the rest of a line starts with, there is a letter or nothing. -/
theorem head_trimStart_spread (hf : ∀ item, ∀ c ∈ (f item).head?, c.isAlpha = true)
    (items : List (Text.Blanks × Item)) (ending : Text.Blanks) :
    ∀ c ∈ (Text.trimStart (spread f items ++ ending)).head?, c.isAlpha = true := by
  induction items with
  | nil =>
    have hnil : Text.trimStart ending = [] := List.dropWhile_eq_nil_iff.2 ending.2
    intro c hc
    rw [spread, List.flatMap_nil, List.nil_append, hnil] at hc
    cases hc
  | cons p items ih =>
    rw [spread_cons, List.append_assoc, List.append_assoc, Text.trimStart,
      List.dropWhile_append_of_pos p.1.2]
    cases hitem : f p.2 with
    | nil => exact ih
    | cons d s =>
      have hd : d.isAlpha = true := hf p.2 d (by rw [hitem]; rfl)
      have hblank : Text.isBlank d = false := by
        rw [Bool.eq_false_iff]
        exact fun hblank => (isNumeric_of_isBlank hblank).ne_of_isAlpha hd rfl
      rw [List.cons_append, List.dropWhile_cons_of_neg (by simp [hblank])]
      rintro c ⟨⟩
      exact hd

/-- So no digit and no point comes next. -/
theorem head_of_head_trimStart {s : List Char}
    (h : ∀ c ∈ (Text.trimStart s).head?, c.isAlpha = true) :
    ∀ c ∈ s.head?, c.isDigit = false ∧ c ≠ '.' := by
  rintro c hc
  cases s with
  | nil => cases hc
  | cons d s =>
    obtain rfl : d = c := Option.some.inj hc
    cases hblank : Text.isBlank d with
    | true => exact ⟨Text.isDigit_of_isBlank hblank, Text.ne_of_isBlank hblank (by decide)⟩
    | false =>
      rw [Text.trimStart_cons_of_not_isBlank s hblank] at h
      have halpha : d.isAlpha = true := h d rfl
      constructor
      · rw [Bool.eq_false_iff]
        exact fun hdigit => (isNumeric_of_isDigit hdigit).ne_of_isAlpha halpha rfl
      · rintro rfl
        cases halpha

theorem forall_mem_spread {P : Char → Prop} (hblank : ∀ c, Text.isBlank c = true → P c)
    (hf : ∀ p ∈ items, ∀ c ∈ f p.2, P c) : ∀ c ∈ spread f items, P c := by
  intro c hc
  obtain ⟨p, hp, hc⟩ := List.mem_flatMap.1 hc
  obtain hc | hc := List.mem_append.1 hc
  · exact hblank c (p.1.2 c hc)
  · exact hf p hp c hc

theorem not_lead_of_mem_spread (h : codes items = []) :
    ∀ c ∈ spread Item.chars items, Command.isLead c = false :=
  forall_mem_spread (fun _ hblank => (isNumeric_of_isBlank hblank).not_lead) fun p hp =>
    not_lead_of_mem_chars (List.filterMap_eq_nil_iff.1 h p hp)

theorem map_toLower_spread (h : codes items = []) :
    (spread Item.chars items).map Char.toLower = spread Item.argument items := by
  unfold spread
  rw [List.map_flatMap]
  refine List.flatMap_congr fun p hp => ?_
  rw [List.map_append, map_toLower_blanks, map_toLower_chars (List.filterMap_eq_nil_iff.1 h p hp)]

end Spread

section Existence

theorem exists_items (es : List (Char × Option Plain))
    (h : ∀ e ∈ es, e.1.isLower = true ∧ Command.isLead e.1 = false) :
    ∃ items, codes items = [] ∧ entries items = es := by
  induction es with
  | nil => exact ⟨[], rfl, rfl⟩
  | cons e es ih =>
    obtain ⟨items, hcodes, hentries⟩ := ih fun e he => h e (List.mem_cons_of_mem _ he)
    obtain ⟨hlower, hlead⟩ := h e List.mem_cons_self
    let nothing : Text.Blanks := ⟨[], fun _ hb => nomatch hb⟩
    have halpha : e.1.isAlpha = true := by rw [Char.isAlpha, hlower, Bool.or_true]
    let w : WrittenWord := ⟨e.1, e.2.map fun n => (nothing, n), halpha, hlead⟩
    have hsame : e.1.toLower = e.1 :=
      Char.toLower_eq_of_not_isUpper (Char.not_isUpper_of_isLower hlower)
    have hnumber : w.number.map Prod.snd = e.2 := by
      rw [Option.map_map]
      exact Option.map_id'
    have hword : w.entry = e := by
      rw [WrittenWord.entry, hnumber, hsame]
    refine ⟨(nothing, .word w) :: items, hcodes, ?_⟩
    rw [entries, List.filterMap_cons]
    change w.entry :: entries items = e :: es
    rw [hword, hentries]

/-- Every code can be written with every map from letters that lead no code. -/
theorem exists_writes (code : Option WrittenCode) (words : Std.ExtTreeMap Char (Option Plain))
    (h : ∀ c ∈ words, c.isLower = true ∧ Command.isLead c = false) :
    ∃ l : Layout, l.Writes (code.map fun c => c.lead.toUpper :: c.digits) words := by
  have hkeys : ∀ e ∈ words.toList, e.1.isLower = true ∧ Command.isLead e.1 = false := by
    intro e he
    have hsome : words[e.1]? = some e.2 := Std.ExtTreeMap.mem_toList_iff_getElem?_eq_some.1 he
    apply h e.1
    rw [Std.ExtTreeMap.mem_iff_isSome_getElem?, hsome]
    rfl
  obtain ⟨items, hcodes, hentries⟩ := exists_items words.toList hkeys
  let nothing : Text.Blanks := ⟨[], fun _ hb => nomatch hb⟩
  cases code with
  | none => exact ⟨⟨items, nothing, none⟩, hcodes, by rw [hentries]⟩
  | some c =>
    refine ⟨⟨(nothing, .code c) :: items, nothing, none⟩, ?_, ?_⟩
    · change (c.lead.toUpper :: c.digits) :: codes items = _
      rw [hcodes]
      rfl
    · change (entries items).Perm _
      rw [hentries]

end Existence

end Layout

end Toolpath
