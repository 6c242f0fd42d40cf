import Toolpath.Proofs.Layouts
import Toolpath.Proofs.WordScan

/-!
# Reading a layout back

No scan takes a text that belongs to another item: behind a numeral or a lone letter come blanks,
another letter, or the end. So a line with one command at most and words of distinct letters reads
as what was written, whatever its layout.
-/

namespace Toolpath

namespace Layout

open Numeral (IsPlain Plain ReadsAs spelled)
open Text (IsSimple isNumeric_of_isBlank isNumeric_of_isDigit isNumeric_of_mem_plain
  isSimple_of_isBlank argumentText_of_isSimple)

section Code

theorem isSimple_of_mem_instruction (l : Layout) : ∀ c ∈ l.instruction, IsSimple c := by
  intro c hc
  obtain hc | hc := List.mem_append.1 hc
  · exact forall_mem_spread (fun _ => isSimple_of_isBlank)
      (fun p _ => isSimple_of_mem_chars p.2) c hc
  · exact isSimple_of_isBlank (l.ending.2 c hc)

theorem splitCode?_eq_none {s : List Char} (h : ∀ c ∈ s, Command.isLead c = false) :
    Command.splitCode? Command.isLead s = none := by
  rw [← List.append_nil s, Command.splitCode?_append h]
  rfl

theorem splitCode?_eq_some {before rest : List Char} (code : WrittenCode)
    (hbefore : ∀ c ∈ before, Command.isLead c = false)
    (hrest : ∀ c ∈ rest.head?, c.isDigit = false) :
    Command.splitCode? Command.isLead (before ++ code.lead :: (code.digits ++ rest)) =
      some (before, code.lead :: code.digits, rest) := by
  have htake : (code.digits ++ rest).takeWhile Char.isDigit = code.digits :=
    takeWhile_of_boundary code.isDigit hrest
  have hdrop : (code.digits ++ rest).dropWhile Char.isDigit = rest :=
    dropWhile_of_boundary code.isDigit hrest
  have hcode : (Command.isLead code.lead && !code.digits.isEmpty) = true := by
    rw [code.isLead, Bool.true_and, Bool.not_eq_true', List.isEmpty_eq_false_iff]
    exact code.ne_nil
  rw [Command.splitCode?_append hbefore, Command.splitCode?_cons, htake, hdrop, if_pos hcode,
    Option.map_some, List.append_nil]

theorem upper_code (code : WrittenCode) :
    (code.lead :: code.digits).map Char.toUpper = code.lead.toUpper :: code.digits := by
  have hsame : ∀ d ∈ code.digits, d.toUpper = d := by
    intro d hd
    have hnumeric := (isNumeric_of_isDigit (code.isDigit d hd)).not_alpha
    rw [Char.isAlpha, Bool.or_eq_false_iff] at hnumeric
    exact Char.toUpper_eq_of_not_isLower (by simp [hnumeric.2])
  rw [List.map_cons, List.map_congr_left hsame, List.map_id']

/-- The one code of a line is its command, and the words stay in lower case. -/
theorem command_of_codes (l : Layout) {code : Option (List Char)}
    (h : codes l.items = code.toList) :
    Command.ofInstruction? l.instruction =
        code.map (fun c => Command.ofCode (String.ofList c)) ∧
      Command.argumentText l.instruction = spread Item.argument l.items ++ l.ending := by
  rw [argumentText_of_isSimple l.isSimple_of_mem_instruction, Command.ofInstruction?,
    Command.splitCode?_upper]
  cases code with
  | none =>
    have hnone : Command.splitCode? Command.isLead l.instruction = none := by
      apply splitCode?_eq_none
      intro c hc
      obtain hc | hc := List.mem_append.1 hc
      · exact not_lead_of_mem_spread h c hc
      · exact (isNumeric_of_isBlank (l.ending.2 c hc)).not_lead
    rw [hnone]
    refine ⟨rfl, ?_⟩
    change l.instruction.map Char.toLower = _
    rw [instruction, List.map_append, map_toLower_spread h, map_toLower_blanks]
  | some code =>
    obtain ⟨before, ⟨gap, item⟩, after, hitems, hbefore, hcode, hafter⟩ :=
      List.filterMap_eq_cons_iff.1 h
    cases item with
    | word w => cases hcode
    | code written =>
      have hinstruction : l.instruction = (spread Item.chars before ++ gap) ++
          written.lead :: (written.digits ++ (spread Item.chars after ++ l.ending)) := by
        rw [instruction, hitems, spread_append, spread_cons]
        simp [Item.chars]
      have hlead : ∀ c ∈ spread Item.chars before ++ gap, Command.isLead c = false := by
        intro c hc
        obtain hc | hc := List.mem_append.1 hc
        · exact not_lead_of_mem_spread (List.filterMap_eq_nil_iff.2 hbefore) c hc
        · exact (isNumeric_of_isBlank (gap.2 c hc)).not_lead
      have hrest : ∀ c ∈ (spread Item.chars after ++ l.ending).head?, c.isDigit = false :=
        fun c hc => (head_of_head_trimStart (head_trimStart_spread chars_head after l.ending) c hc).1
      rw [hinstruction, splitCode?_eq_some written hlead hrest]
      constructor
      · rw [Option.map_some, upper_code]
        obtain rfl : written.lead.toUpper :: written.digits = code := Option.some.inj hcode
        rfl
      · change (spread Item.chars before ++ gap ++ (spread Item.chars after ++ l.ending)).map
          Char.toLower = _
        rw [List.map_append, List.map_append, List.map_append, map_toLower_blanks,
          map_toLower_blanks, map_toLower_spread (List.filterMap_eq_nil_iff.2 hbefore),
          map_toLower_spread hafter, hitems, spread_append, spread_cons]
        simp [Item.argument]

end Code

section Words

open Words (wordOf? numeralAfter?)

/-- What a written word reads as. -/
def wordOf : Option Plain → Word
  | some numeral => .number (spelled numeral).toFloat
  | none => .flag

theorem ofStart?_of_head {s : List Char} (h : ∀ c ∈ s.head?, c.isAlpha = true) :
    Numeral.ofStart? s = none := by
  obtain ⟨hnone, -⟩ | ⟨part, after, -, hlongest⟩ := Numeral.ofStart?_cases s
  · exact hnone
  · obtain ⟨c, part, rfl⟩ := List.exists_cons_of_ne_nil hlongest.meets.ne_nil
    have halpha : c.isAlpha = true := h c (by rw [hlongest.parts]; rfl)
    have hnumeric := isNumeric_of_mem_plain hlongest.meets c List.mem_cons_self
    exact absurd rfl (hnumeric.ne_of_isAlpha halpha)

/-- A word reads as what is written, if a letter or nothing comes behind the blanks behind it and
its letter stands there nowhere else. -/
theorem wordOf?_written (w : WrittenWord) {rest : List Char}
    (hrest : ∀ c ∈ (Text.trimStart rest).head?, c.isAlpha = true)
    (hmem : w.letter.toLower ∉ rest) :
    wordOf? (w.letter.toLower :: (w.behind ++ rest)) w.letter.toLower =
      some (wordOf w.entry.2) := by
  cases hnumber : w.number with
  | none =>
    have hbehind : w.behind = [] := by rw [WrittenWord.behind, hnumber]
    have hscan : numeralAfter? w.letter.toLower (w.letter.toLower :: rest) = none := by
      rw [Words.numeralAfter?_of_none (ofStart?_of_head hrest),
        Words.numeralAfter?_eq_none_of_not_mem hmem]
    rw [hbehind, List.nil_append, wordOf?, hscan, WrittenWord.entry, hnumber]
    exact if_pos List.mem_cons_self
  | some number =>
    obtain ⟨gap, numeral⟩ := number
    have hbehind : w.behind = gap ++ numeral := by rw [WrittenWord.behind, hnumber]
    have htrim : Text.trimStart (w.behind ++ rest) = numeral ++ rest := by
      rw [hbehind, List.append_assoc]
      exact dropWhile_of_boundary gap.2 (Words.isBlank_head_of_isPlain numeral.2)
    have hstart : Numeral.ofStart? (Text.trimStart (w.behind ++ rest)) = some (spelled numeral) := by
      rw [htrim]
      exact numeral.2.ofStart?_append (head_of_head_trimStart hrest)
    rw [wordOf?, Words.numeralAfter?_of_some hstart, WrittenWord.entry, hnumber]
    rfl

theorem not_mem_spread {items : List (Text.Blanks × Item)} {c : Char} (hc : c.isAlpha = true)
    (h : c ∉ (entries items).map Prod.fst) : c ∉ spread Item.argument items := by
  have hne : ∀ d ∈ spread Item.argument items, d ≠ c := by
    refine forall_mem_spread ?_ ?_
    · exact fun d hblank => (isNumeric_of_isBlank hblank).ne_of_isAlpha hc
    · rintro ⟨gap, item⟩ hp d hd rfl
      cases item with
      | code code => cases hd
      | word w =>
        obtain rfl | hd := List.mem_cons.1 hd
        · have hentry : w.entry ∈ entries items := List.mem_filterMap.2 ⟨_, hp, rfl⟩
          exact h (List.mem_map_of_mem hentry)
        · exact (isNumeric_of_mem_behind w d hd).ne_of_isAlpha hc rfl
  exact fun hmem => hne c hmem rfl

theorem not_mem_blanks {c : Char} (hc : c.isAlpha = true) (b : Text.Blanks) : c ∉ b.1 :=
  fun hmem => (isNumeric_of_isBlank (b.2 c hmem)).ne_of_isAlpha hc rfl

theorem mem_letters_of_mem_entries {items : List (Text.Blanks × Item)}
    {e : Char × Option Plain} (h : e ∈ entries items) : e.1 ∈ Words.letters := by
  obtain ⟨⟨gap, item⟩, -, hitem⟩ := List.mem_filterMap.1 h
  cases item with
  | code code => cases hitem
  | word w =>
    obtain rfl := Option.some.inj hitem
    rw [Words.mem_letters_iff_isLower]
    exact (Char.isLower_toLower_eq_isAlpha _).trans w.isAlpha

/-- Of distinct letters, each reads as what is written behind it. -/
theorem wordOf?_spread {items : List (Text.Blanks × Item)} (ending : Text.Blanks)
    (hnodup : ((entries items).map Prod.fst).Nodup) {e : Char × Option Plain}
    (h : e ∈ entries items) :
    wordOf? (spread Item.argument items ++ ending) e.1 = some (wordOf e.2) := by
  have halpha : e.1.isAlpha = true := Words.isAlpha_of_mem_letters (mem_letters_of_mem_entries h)
  obtain ⟨⟨gap, item⟩, hp, hitem⟩ := List.mem_filterMap.1 h
  obtain ⟨before, after, rfl⟩ := List.append_of_mem hp
  cases item with
  | code code => cases hitem
  | word w =>
    obtain rfl : w.entry = e := Option.some.inj hitem
    have hentries : entries (before ++ (gap, .word w) :: after) =
        entries before ++ w.entry :: entries after := by
      rw [entries, List.filterMap_append, List.filterMap_cons]
      rfl
    rw [hentries, List.map_append, List.map_cons, List.nodup_middle, List.nodup_cons,
      List.mem_append, not_or] at hnodup
    obtain ⟨⟨hbefore, hafter⟩, -⟩ := hnodup
    have hfront : w.entry.1 ∉ spread Item.argument before ++ gap := by
      rw [List.mem_append, not_or]
      exact ⟨not_mem_spread halpha hbefore, not_mem_blanks halpha gap⟩
    have hback : w.entry.1 ∉ spread Item.argument after ++ ending := by
      rw [List.mem_append, not_or]
      exact ⟨not_mem_spread halpha hafter, not_mem_blanks halpha ending⟩
    have htext : spread Item.argument (before ++ (gap, .word w) :: after) ++ ending =
        (spread Item.argument before ++ gap) ++
          w.entry.1 :: (w.behind ++ (spread Item.argument after ++ ending)) := by
      rw [spread_append, spread_cons]
      simp [Item.argument, WrittenWord.entry]
    rw [htext, Words.wordOf?_append hfront]
    exact wordOf?_written w (head_trimStart_spread argument_head after ending) hback

end Words

section Record

variable {l : Layout} {code : Option (List Char)} {words : Std.ExtTreeMap Char (Option Plain)}

theorem Writes.mem_entries_iff (h : l.Writes code words) {c : Char} {n : Option Plain} :
    (c, n) ∈ entries l.items ↔ words[c]? = some n := by
  rw [h.words.mem_iff, Std.ExtTreeMap.mem_toList_iff_getElem?_eq_some]

theorem Writes.nodup (h : l.Writes code words) : ((entries l.items).map Prod.fst).Nodup := by
  rw [(h.words.map Prod.fst).nodup_iff, List.Nodup, List.pairwise_map]
  exact Std.ExtTreeMap.distinct_keys_toList.imp fun hne heq =>
    hne (Std.compare_eq_iff_eq.2 heq)

theorem Writes.words_eq (h : l.Writes code words) :
    Words.ofText (spread Item.argument l.items ++ l.ending) = words.map fun _ n => wordOf n := by
  apply Std.ExtTreeMap.ext_getElem?
  intro c
  rw [Words.getElem?_ofText, Std.ExtTreeMap.getElem?_map]
  cases hc : words[c]? with
  | some n =>
    have hentry : (c, n) ∈ entries l.items := h.mem_entries_iff.2 hc
    rw [if_pos (mem_letters_of_mem_entries hentry)]
    exact wordOf?_spread l.ending h.nodup hentry
  | none =>
    have hkey : c ∉ (entries l.items).map Prod.fst := by
      intro hmem
      obtain ⟨⟨d, n⟩, hentry, rfl⟩ := List.mem_map.1 hmem
      rw [h.mem_entries_iff.1 hentry] at hc
      cases hc
    split_ifs with hletter
    · have halpha : c.isAlpha = true := Words.isAlpha_of_mem_letters hletter
      refine Words.wordOf?_eq_none_iff.2 ?_
      rw [List.mem_append, not_or]
      exact ⟨not_mem_spread halpha hkey, not_mem_blanks halpha l.ending⟩
    · rfl

theorem splitComment_text (l : Layout) :
    Record.splitComment l.text.toList = (l.instruction, l.comment.map Text.trim) := by
  have hnot : ';' ∉ l.instruction := fun hmem => (l.isSimple_of_mem_instruction ';' hmem).2.1 rfl
  rw [text, String.toList_ofList, Record.splitComment]
  cases l.comment with
  | none =>
    have hnone := Text.splitFirst?_eq_none_iff.2 hnot
    rw [Option.map_none, Option.getD_none, List.append_nil, hnone]
    rfl
  | some comment =>
    have hsome : Text.splitFirst? ';' (l.instruction ++ ';' :: comment) =
        some (l.instruction, comment) := Text.splitFirst?_eq_some_iff.2 ⟨rfl, hnot⟩
    rw [Option.map_some, Option.getD_some, hsome]
    rfl

theorem Writes.ofLine_text (h : l.Writes code words) : Record.ofLine l.text =
    { command := code.map fun c => Command.ofCode (String.ofList c)
      words := words.map fun _ n => wordOf n
      comment := l.comment.map fun c => String.ofList (Text.trim c)
      tags := (l.comment.map fun c => Tags.ofComment (Text.trim c)).getD ∅ } := by
  obtain ⟨hcommand, hargument⟩ := l.command_of_codes h.codes
  rw [Record.ofLine, Record.ofText, splitComment_text]
  simp only [hcommand, hargument, h.words_eq, Option.map_map, Function.comp_def]

end Record

end Layout

/-- What a written word stands for: a number that its numeral reads as, or a flag. -/
inductive Word.StandsFor : Option Numeral.Plain → Word → Prop where
  | number {numeral : Numeral.Plain} {x : Float} (h : Numeral.ReadsAs numeral x) :
      StandsFor (some numeral) (.number x)
  | flag : StandsFor none .flag

/-- A line reads as what is written on it: the command in upper case, the words with their numbers,
and the trimmed comment with its tags. So two layouts of the same make the same record. -/
theorem Layout.reading_undoes_writing (l : Layout) (code : Option (List Char))
    (words : Std.ExtTreeMap Char (Option Numeral.Plain)) (h : l.Writes code words) :
    (Record.ofLine l.text).command = code.map (fun c => Command.ofCode (String.ofList c)) ∧
    (∀ c : Char, Option.Rel Word.StandsFor words[c]? (Record.ofLine l.text).words[c]?) ∧
    (Record.ofLine l.text).comment = l.comment.map (fun c => String.ofList (Text.trim c)) ∧
    (Record.ofLine l.text).tags =
      (l.comment.map fun c => Tags.ofComment (Text.trim c)).getD ∅ ∧
    ∀ l' : Layout, l'.Writes code words → l'.comment = l.comment →
      Record.ofLine l'.text = Record.ofLine l.text := by
  rw [h.ofLine_text]
  refine ⟨rfl, ?_, rfl, rfl, ?_⟩
  · intro c
    change Option.Rel _ _ (words.map fun _ n => wordOf n)[c]?
    rw [Std.ExtTreeMap.getElem?_map]
    cases words[c]? with
    | none => exact .none
    | some n =>
      cases n with
      | none => exact .some .flag
      | some numeral => exact .some (.number numeral.2.readsAs)
  · intro l' h' hcomment
    rw [h'.ofLine_text, hcomment]

theorem Layout.reading_undoes_writing_shuffled :
    let nothing : Text.Blanks := ⟨[], by simp⟩
    let blanks : Text.Blanks := ⟨['\t', '\u3000'], by simp; decide⟩
    let half : Numeral.Plain :=
      ⟨['-', '.', '5'], .signed (.inr rfl) (@Numeral.IsUnsigned.pointed [] ['5'] (by simp)
        (by simp) (by simp))⟩
    let two : Numeral.Plain := ⟨['2'], .unsigned (.whole (by simp) (by simp))⟩
    let written (lead : Char) (h : Command.isLead lead = true) : Item :=
      .code ⟨lead, ['0', '1'], h, by simp, by simp⟩
    let code := some ['G', '0', '1']
    let words := Std.ExtTreeMap.ofList [('e', some two), ('x', some half), ('y', none)]
    let l : Layout :=
      ⟨[(nothing, .word ⟨'y', none, by decide, by decide⟩),
        (nothing, .word ⟨'X', some (blanks, half), by decide, by decide⟩),
        (nothing, written 'g' (by decide)),
        (blanks, .word ⟨'E', some (nothing, two), by decide, by decide⟩)],
        blanks, some [' ', 'T', ';']⟩
    let l' : Layout :=
      ⟨[(blanks, written 'G' (by decide)),
        (blanks, .word ⟨'x', some (nothing, half), by decide, by decide⟩),
        (nothing, .word ⟨'e', some (blanks, two), by decide, by decide⟩),
        (nothing, .word ⟨'Y', none, by decide, by decide⟩)],
        nothing, some [' ', 'T', ';']⟩
    l.text = "yX\t\u3000-.5g01\t\u3000E2\t\u3000; T;" ∧
      (l.Writes code words ∧ l'.Writes code words) ∧
      (Record.ofLine l.text).command = some (.other "G01") ∧
      (Record.ofLine l.text).words['y']? = some .flag ∧
      (∃ x, (Record.ofLine l.text).words['x']? = some (.number x) ∧
        Numeral.ReadsAs ['-', '.', '5'] x) ∧
      (Record.ofLine l.text).comment = some "T;" ∧
      Record.ofLine l'.text = Record.ofLine l.text := by
  intro nothing blanks half two written code words l l'
  have hl : l.Writes code words := ⟨rfl, by decide +kernel⟩
  have hl' : l'.Writes code words := ⟨rfl, by decide +kernel⟩
  obtain ⟨hcommand, hwords, hcomment, -, hsame⟩ := l.reading_undoes_writing code words hl
  have hflag := hwords 'y'
  have hnumber := hwords 'x'
  have hy : words['y']? = some none := by decide +kernel
  have hx : words['x']? = some (some half) := by decide +kernel
  rw [hy] at hflag
  rw [hx] at hnumber
  refine ⟨by decide +kernel, ⟨hl, hl'⟩, ?_, ?_, ?_, ?_, hsame l' hl' rfl⟩
  · rw [hcommand]
    decide +kernel
  · generalize (Record.ofLine l.text).words['y']? = word at hflag ⊢
    cases hflag with
    | some h =>
      cases h
      rfl
  · generalize (Record.ofLine l.text).words['x']? = word at hnumber ⊢
    cases hnumber with
    | some h =>
      cases h with
      | number hreads => exact ⟨_, rfl, hreads⟩
  · rw [hcomment]
    decide +kernel

end Toolpath
