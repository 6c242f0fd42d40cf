import Toolpath.Program
import Toolpath.Proofs.CommentTags

/-!
# Spellings of axis letters

A comment, the command line and a settings file may each name the letter that an axis reads. Only
the comment changes the text before it is compared with the letters: its value is trimmed and, if it
is no number, put in lower case beyond ASCII too. No letter gets lost by that, as none is a number,
and none is won, as a text in lower case has no other characters than letters and blanks only if it
had no others before.
-/

namespace Toolpath

open Text (isBlank trim)

namespace Text

theorem exists_trim (s : List Char) :
    ∃ before after, s = before ++ trim s ++ after ∧ (∀ b ∈ before, isBlank b = true) ∧
      ∀ b ∈ after, isBlank b = true := by
  let inner := trimStart s
  have hstart : s.takeWhile isBlank ++ inner = s := List.takeWhile_append_dropWhile
  have hend : trim s ++ (inner.reverse.takeWhile isBlank).reverse = inner := by
    rw [trim, trimEnd, ← List.reverse_append, List.takeWhile_append_dropWhile, List.reverse_reverse]
  refine ⟨s.takeWhile isBlank, (inner.reverse.takeWhile isBlank).reverse, ?_, ?_, ?_⟩
  · rw [List.append_assoc, hend, hstart]
  · exact fun b hb => List.mem_takeWhile_imp hb
  · exact fun b hb => List.mem_takeWhile_imp (List.mem_reverse.1 hb)

theorem trim_between_blanks {before after : List Char} {c : Char}
    (hbefore : ∀ b ∈ before, isBlank b = true) (hafter : ∀ b ∈ after, isBlank b = true)
    (hc : isBlank c = false) : trim (before ++ c :: after) = [c] := by
  have hhead : ∀ rest : List Char, ∀ d ∈ (c :: rest).head?, isBlank d = false := by
    intro rest d hd
    rwa [← Option.some.inj hd]
  have hstart : trimStart (before ++ c :: after) = c :: after :=
    dropWhile_of_boundary hbefore (hhead after)
  have hend : (c :: after).reverse.dropWhile isBlank = [c] := by
    rw [List.reverse_cons]
    exact dropWhile_of_boundary (fun b hb => hafter b (List.mem_reverse.1 hb)) (hhead [])
  rw [trim, hstart, trimEnd, hend, List.reverse_singleton]

theorem lower_of_ascii_or_blank {s : List Char}
    (h : ∀ c ∈ s, c.toNat < 0x80 ∨ isBlank c = true) : lower s = s.map Char.toLower := by
  apply lower_of_forms
  · intro hmem
    have hsigma : ¬ ('Σ'.toNat < 0x80 ∨ isBlank 'Σ' = true) := by decide
    exact hsigma (h _ hmem)
  · intro c hc
    obtain hascii | hblank := h c hc
    · exact lowerChar_of_ascii hascii
    · rw [lowerChar_of_isBlank hblank, toLower_of_not_isAlpha (isAlpha_of_isBlank hblank)]

end Text

namespace AxisLetter

/-- The letter, small or capital, between blanks. -/
def IsSpelledBy (letter : AxisLetter) (s : List Char) : Prop :=
  ∃ before c after, s = before ++ c :: after ∧ (∀ b ∈ before, isBlank b = true) ∧
    (∀ b ∈ after, isBlank b = true) ∧ (c = letter.toChar ∨ c = letter.toChar.toUpper)

variable {letter : AxisLetter} {s : List Char}

theorem toLower_eq_toChar_iff {c : Char} :
    c.toLower = letter.toChar ↔ c = letter.toChar ∨ c = letter.toChar.toUpper := by
  constructor
  · intro h
    cases hc : c.isUpper with
    | true =>
      obtain ⟨n, hn, rfl⟩ := Text.exists_capital hc
      have hback : ∀ n < 26, (Char.ofNat (0x41 + n)).toLower.toUpper = Char.ofNat (0x41 + n) := by
        decide
      exact .inr (by rw [← h, hback n hn])
    | false => exact .inl (by rw [← h, Char.toLower_eq_of_not_isUpper (by simp [hc])])
  · rintro (rfl | rfl) <;> cases letter <;> rfl

theorem ofText?_eq_some_iff_trim :
    ofText? s = some letter ↔ ∃ c, trim s = [c] ∧ c.toLower = letter.toChar := by
  unfold ofText?
  split
  · rename_i c htrim
    rw [ofChar?_eq_some_iff, htrim]
    simp [eq_comm]
  · rename_i hsingle
    simp only [reduceCtorEq, false_iff]
    rintro ⟨c, hc, -⟩
    exact hsingle c hc

theorem ofText?_eq_some_iff : ofText? s = some letter ↔ letter.IsSpelledBy s := by
  rw [ofText?_eq_some_iff_trim]
  constructor
  · rintro ⟨c, htrim, hc⟩
    obtain ⟨before, after, hs, hbefore, hafter⟩ := Text.exists_trim s
    rw [htrim, List.append_assoc] at hs
    exact ⟨before, c, after, hs, hbefore, hafter, toLower_eq_toChar_iff.1 hc⟩
  · rintro ⟨before, c, after, rfl, hbefore, hafter, hc⟩
    have hblank : isBlank c = false := by
      obtain rfl | rfl := hc <;> cases letter <;> rfl
    exact ⟨c, Text.trim_between_blanks hbefore hafter hblank, toLower_eq_toChar_iff.2 hc⟩

theorem ofText?_trim (s : List Char) : ofText? (trim s) = ofText? s := by
  rw [ofText?, Text.trim_trim, ofText?]

theorem ofText?_map_toLower (s : List Char) : ofText? (s.map Char.toLower) = ofText? s := by
  unfold ofText?
  rw [Text.trim_map_toLower]
  match trim s with
  | [] => rfl
  | [char] => simp only [List.map_cons, List.map_nil, Char.toLower_toLower_eq_toLower]
  | _ :: _ :: _ => rfl

/-- The numbers of the letters, small and capital. -/
def letterRanges : List (Nat × Nat) :=
  [(0x41, 0x43), (0x45, 0x45), (0x49, 0x4A), (0x55, 0x5A), (0x61, 0x63), (0x65, 0x65),
    (0x69, 0x6A), (0x75, 0x7A)]

theorem letterRanges_ascii : ∀ q ∈ letterRanges, 0 < q.1 ∧ q.2 < 0x80 := by decide

def spellingRanges : List (Nat × Nat) := letterRanges ++ Text.blankRanges

theorem areClosed_spellingRanges : Text.AreClosed spellingRanges where
  positive := by decide
  outside := by decide +kernel
  special := by simp [Text.inRanges, spellingRanges, letterRanges, Text.blankRanges]

theorem inRanges_spellingRanges (c : Char) :
    Text.inRanges spellingRanges c.toNat =
      (Text.inRanges letterRanges c.toNat || isBlank c) := by
  rw [Text.isBlank_eq, Text.inRanges, spellingRanges, List.any_append, ← Text.inRanges,
    ← Text.inRanges]

theorem IsSpelledBy.inRanges (h : letter.IsSpelledBy s) :
    ∀ c ∈ s, Text.inRanges spellingRanges c.toNat = true := by
  obtain ⟨before, c, after, rfl, hbefore, hafter, hc⟩ := h
  have hblank : ∀ b, isBlank b = true → Text.inRanges spellingRanges b.toNat = true := by
    intro b hb
    rw [inRanges_spellingRanges, hb, Bool.or_true]
  have hletter : Text.inRanges spellingRanges c.toNat = true := by
    obtain rfl | rfl := hc <;> cases letter <;> rfl
  rw [List.forall_mem_append, List.forall_mem_cons]
  exact ⟨fun b hb => hblank b (hbefore b hb), hletter, fun b hb => hblank b (hafter b hb)⟩

theorem ascii_or_blank_of_inRanges {c : Char}
    (h : Text.inRanges spellingRanges c.toNat = true) : c.toNat < 0x80 ∨ isBlank c = true := by
  by_cases hascii : c.toNat < 0x80
  · exact .inl hascii
  · right
    have hletter := Text.inRanges_of_not_ascii letterRanges_ascii (Nat.le_of_not_lt hascii)
    rwa [inRanges_spellingRanges, hletter, Bool.false_or] at h

/-- Lower case is all the same to the letters, beyond ASCII too. -/
theorem ofText?_lower (s : List Char) : ofText? (Text.lower s) = ofText? s := by
  have hsame : (∀ c ∈ s, c.toNat < 0x80 ∨ isBlank c = true) →
      ofText? (Text.lower s) = ofText? s := by
    intro h
    rw [Text.lower_of_ascii_or_blank h, ofText?_map_toLower]
  apply Option.ext
  intro letter
  constructor
  · intro h
    have hforms := (ofText?_eq_some_iff.1 h).inRanges
    rw [← hsame fun c hc => (areClosed_spellingRanges.of_lowerAfter hforms c hc).elim .inl
      ascii_or_blank_of_inRanges]
    exact h
  · intro h
    rwa [hsame fun c hc => ascii_or_blank_of_inRanges ((ofText?_eq_some_iff.1 h).inRanges c hc)]

theorem floatOfText?_eq_none {c : Char} (hc : c.toLower = letter.toChar) :
    floatOfText? [c] = none := by
  rw [← floatOfText?_map_toLower, List.map_singleton, hc]
  cases letter <;> decide +kernel

theorem ofString_eq_ok_iff {s : String} :
    ofString s = .ok letter ↔ letter.IsSpelledBy s.toList := by
  rw [← ofText?_eq_some_iff, ofString]
  cases ofText? s.toList <;> simp

theorem ofString_eq_error_iff {s : String} {e : Error} :
    ofString s = .error e ↔ ofText? s.toList = none ∧ e = .unknownAxisLetter s := by
  rw [ofString]
  cases ofText? s.toList <;> simp [eq_comm]

end AxisLetter

namespace Record

/-- The record of a comment that gives a letter to an axis, as it stands in a file. -/
def ofDirective (axis : Axis) (s : String) : Record :=
  .ofLine (";" ++ axis.directiveKey ++ ":" ++ s)

variable {axis : Axis} {s : String} (hs : ',' ∉ s.toList)

include hs

theorem tags_ofDirective (key : String) :
    (ofDirective axis s).tags[key]? =
      if key = axis.directiveKey then some (.ofText (trim s.toList)) else none := by
  let part := axis.directiveKey.toList ++ ':' :: s.toList
  have hline : ofDirective axis s = .ofComment part := by
    rw [ofDirective, ofComment]
    congr 1
    apply String.toList_injective
    simp [part]
  have hcomma : ',' ∉ part := by
    have hkey : ',' ∉ axis.directiveKey.toList := by cases axis <;> decide +kernel
    simp [part, hkey, hs]
  have hsplit : Text.splitFirst? ':' part = some (axis.directiveKey.toList, s.toList) := by
    have hkey : ':' ∉ axis.directiveKey.toList := by cases axis <;> decide +kernel
    exact Text.splitFirst?_eq_some_iff.2 ⟨rfl, hkey⟩
  have hlower : String.ofList (Text.lower (trim axis.directiveKey.toList)) = axis.directiveKey := by
    cases axis <;> decide +kernel
  have hentries : Tags.entries part = [(axis.directiveKey, .ofText (trim s.toList))] := by
    have hentry : Tags.entry? part = some (axis.directiveKey, .ofText (trim s.toList)) := by
      simp only [Tags.entry?, hsplit, Option.map_some, hlower]
    rw [Tags.entries_of_not_mem hcomma, List.filterMap_cons_some hentry, List.filterMap_nil]
  rw [hline, tags_ofComment, Tags.ofComment, Tags.getElem?_ofList, hentries, List.reverse_singleton,
    List.lookup_cons, List.lookup_nil]
  by_cases hkey : key = axis.directiveKey
  · rw [if_pos hkey, beq_iff_eq.2 hkey]
  · rw [if_neg hkey, beq_false_of_ne hkey]

theorem axisLetter?_ofDirective (other : Axis) :
    (ofDirective axis s).axisLetter? other =
      if other = axis then AxisLetter.ofText? s.toList else none := by
  rw [axisLetter?, tags_ofDirective hs]
  by_cases hother : other = axis
  · rw [hother, if_pos rfl, if_pos rfl]
    cases hvalue : TagValue.ofText (trim s.toList) with
    | text lowered =>
      change AxisLetter.ofText? lowered.toList = _
      rw [TagValue.toList_of_ofText hvalue, AxisLetter.ofText?_lower, AxisLetter.ofText?_trim]
    | number x =>
      symm
      apply Option.eq_none_iff_forall_ne_some.2
      intro letter hletter
      obtain ⟨c, htrim, hc⟩ := AxisLetter.ofText?_eq_some_iff_trim.1 hletter
      have hnumber := (TagValue.ofText_eq_number_iff.1 hvalue).1
      rw [htrim, AxisLetter.floatOfText?_eq_none hc] at hnumber
      cases hnumber
  · have hkey : other.directiveKey ≠ axis.directiveKey := by
      revert hother
      cases other <;> cases axis <;> decide
    rw [if_neg hother, if_neg hkey]

theorem directives_ofDirective :
    Directive.ofRecord (ofDirective axis s) =
      ((AxisLetter.ofText? s.toList).map (Directive.axisSource axis)).toList := by
  have hview : (ofDirective axis s).layerView? = none := by
    have hkey : "hide_layers" ≠ axis.directiveKey := by cases axis <;> decide
    rw [layerView?, tags_ofDirective hs, if_neg hkey, Option.map_none]
  have hheight : (ofDirective axis s).layerHeight? = none := by
    have hkey : "layer_height" ≠ axis.directiveKey := by cases axis <;> decide
    rw [layerHeight?, tagNumber?, tags_ofDirective hs, if_neg hkey, Option.bind_none]
  simp only [Directive.ofRecord, hview, hheight, axisLetter?_ofDirective hs]
  cases axis <;> cases AxisLetter.ofText? s.toList <;> rfl

end Record

/-- The name of the option that gives a letter to an axis on the command line. -/
def Axis.optionName : Axis → String
  | .x => "x-axis"
  | .y => "y-axis"
  | .z => "z-axis"

namespace CommandLine

variable {letter : AxisLetter} {s : String}

/-- A parameter with its value in one word. -/
theorem take_assignment {r : Reading} (hinputs : r.inputsOnly = false) {name : String}
    (hname : '=' ∉ name.toList) {parameter : Parameter}
    (hparameter : longOption? name = some (.inl parameter)) (value : String) :
    r.take ("--" ++ name ++ "=" ++ value) = r.settle >>= fun r => r.give parameter value := by
  have hword : ("--" ++ name ++ "=" ++ value).toList =
      '-' :: '-' :: (name.toList ++ '=' :: value.toList) := by
    simp
  have hbefore : ∀ c ∈ name.toList, (c != '=') = true := by
    intro c hc
    exact bne_iff_ne.2 fun heq => hname (heq ▸ hc)
  have hhead : ∀ c ∈ ('=' :: value.toList).head?, (c != '=') = false := by simp
  have hlong : r.takeLong (name.toList ++ '=' :: value.toList) =
      r.settle >>= fun r => r.give parameter value := by
    rw [Reading.takeLong, takeWhile_of_boundary hbefore hhead, dropWhile_of_boundary hbefore hhead]
    simp only [String.ofList_toList, hparameter]
  -- The word is no mere pair of dashes.
  obtain ⟨c, rest, hcons⟩ :=
    List.exists_cons_of_ne_nil (List.append_ne_nil_of_right_ne_nil name.toList
      (List.cons_ne_nil '=' value.toList))
  rw [Reading.take, hinputs, if_neg Bool.false_ne_true, hword]
  rw [hcons] at hlong ⊢
  exact hlong

theorem take_axis (axis : Axis) (s : String) :
    Reading.take {} ("--" ++ axis.optionName ++ "=" ++ s) =
      Reading.give {} (.axis axis) s := by
  have hname : '=' ∉ axis.optionName.toList := by cases axis <;> decide +kernel
  have hparameter : longOption? axis.optionName = some (.inl (.axis axis)) := by
    cases axis <;> rfl
  rw [take_assignment rfl hname hparameter]
  rfl

/-- A word that makes a choice, and one input behind two dashes. -/
theorem read_of_take {word input : String} {choices : Choices} (hinput : input ≠ "")
    (h : Reading.take {} word = .ok { choices := choices }) :
    read [word, "--", input] = .ok ⟨input, choices⟩ := by
  let named : Reading :=
    { choices, pending := some (.input, some input), inputNamed := true, inputsOnly := true }
  have hwords : [word, "--", input].foldlM Reading.take {} = .ok named := by
    rw [List.foldlM_cons, h]
    rfl
  have hpath : path input = .ok input := by
    rw [path, if_neg (by simpa using hinput)]
  have hsettle : named.settle = .ok { named with input := some input, pending := none } := by
    simp only [named, Reading.settle, Reading.give, assign, fill, hpath]
    rfl
  rw [read, hwords]
  change (named.settle >>= _) = _
  rw [hsettle]
  rfl

theorem read_axis_of_some (axis : Axis) (h : AxisLetter.ofText? s.toList = some letter)
    {input : String} (hinput : input ≠ "") :
    ∃ choices, read ["--" ++ axis.optionName ++ "=" ++ s, "--", input] = .ok ⟨input, choices⟩ ∧
      ∀ o, Settings.mergeOptions choices o = { o with axes := o.axes.setSource axis letter } := by
  have hread : ∀ choices, Reading.give {} (.axis axis) s = .ok { choices := choices } →
      read ["--" ++ axis.optionName ++ "=" ++ s, "--", input] = .ok ⟨input, choices⟩ := by
    intro choices hgive
    apply read_of_take hinput
    rw [take_axis, hgive]
  have hletter : CommandLine.letter s = .ok letter := by
    rw [CommandLine.letter, h, orElse]
  cases axis with
  | x =>
    refine ⟨{ xAxis := some letter }, hread _ ?_, fun o => rfl⟩
    rw [Reading.give, assign, hletter]
    rfl
  | y =>
    refine ⟨{ yAxis := some letter }, hread _ ?_, fun o => rfl⟩
    rw [Reading.give, assign, hletter]
    rfl
  | z =>
    refine ⟨{ zAxis := some letter }, hread _ ?_, fun o => rfl⟩
    rw [Reading.give, assign, hletter]
    rfl

theorem read_axis_of_none (axis : Axis) (h : AxisLetter.ofText? s.toList = none)
    (words : List String) :
    read (("--" ++ axis.optionName ++ "=" ++ s) :: words) = .error .malformedValue := by
  have hletter : CommandLine.letter s = .error .malformedValue := by
    rw [CommandLine.letter, h, orElse]
  have hgive : Reading.give {} (.axis axis) s = .error .malformedValue := by
    cases axis <;> rw [Reading.give, assign, hletter] <;> rfl
  rw [read, List.foldlM_cons, take_axis, hgive]
  rfl

end CommandLine

theorem FileSettings.options?_axis (axis : Axis) (s : String) (kind : Toml.TableKind) :
    options? (.table (.mk kind [(axis.directiveKey, .text s)])) =
      (AxisLetter.ofText? s.toList).map fun letter =>
        { axes := AxisMap.identity.setSource axis letter } := by
  cases axis <;> cases h : AxisLetter.ofText? s.toList <;>
    simp [options?, othersReadable, optionsFrom?, optionNames, optional?, letter?, h,
      Toml.Table.get?, Toml.Table.entries, List.lookup, Axis.directiveKey, AxisMap.setSource]

namespace Machine

/-- A comment gives a letter to an axis exactly where the text behind its colon spells the letter,
small or capital, between blanks, and changes nothing at all where it spells none. The command line
and settings files accept the same texts for the same letters, and refuse all others. -/
theorem axis_spellings_agree (m : Machine) (axis : Axis) {s : String} (hs : ',' ∉ s.toList) :
    let r := Record.ofLine (";" ++ axis.directiveKey ++ ":" ++ s)
    let word := "--" ++ axis.optionName ++ "=" ++ s
    let options? := fun kind =>
      FileSettings.options? (.table (.mk kind [(axis.directiveKey, .text s)]))
    (∀ letter, AxisLetter.ofString s = .ok letter ↔ letter.IsSpelledBy s.toList) ∧
    (∀ letter, AxisLetter.ofString s = .ok letter →
      m.applyDirectives r =
        ({ m with
            options := { m.options with axes := m.options.axes.setSource axis letter }
            modal := { m.modal with axes := m.modal.axes.setSource axis letter } }, true) ∧
      (∀ input, input ≠ "" →
        ∃ choices, CommandLine.read [word, "--", input] = .ok ⟨input, choices⟩ ∧
          ∀ o, Settings.mergeOptions choices o =
            { o with axes := o.axes.setSource axis letter }) ∧
      ∀ kind, options? kind = some { axes := AxisMap.identity.setSource axis letter }) ∧
    ∀ e, AxisLetter.ofString s = .error e →
      e = .unknownAxisLetter s ∧ m.applyDirectives r = (m, false) ∧
      (∀ words, CommandLine.read (word :: words) = .error .malformedValue) ∧
      ∀ kind, options? kind = none := by
  intro r word options?
  have hdirectives : Directive.ofRecord (.ofDirective axis s) =
      ((AxisLetter.ofText? s.toList).map (Directive.axisSource axis)).toList :=
    Record.directives_ofDirective hs
  have hoptions := FileSettings.options?_axis axis s
  refine ⟨fun letter => AxisLetter.ofString_eq_ok_iff, ?_, ?_⟩
  · intro letter hok
    have h : AxisLetter.ofText? s.toList = some letter :=
      AxisLetter.ofText?_eq_some_iff.2 (AxisLetter.ofString_eq_ok_iff.1 hok)
    rw [h] at hdirectives hoptions
    refine ⟨?_, fun input hinput => CommandLine.read_axis_of_some axis h hinput, hoptions⟩
    change m.applyDirectives (.ofDirective axis s) = _
    rw [applyDirectives, hdirectives]
    rfl
  · intro e herror
    obtain ⟨h, he⟩ := AxisLetter.ofString_eq_error_iff.1 herror
    rw [h] at hdirectives hoptions
    refine ⟨he, ?_, CommandLine.read_axis_of_none axis h, hoptions⟩
    change m.applyDirectives (.ofDirective axis s) = _
    rw [applyDirectives, hdirectives]
    rfl

/-- An ideographic space before the capital letter and a tab behind it. -/
theorem axis_spellings_agree_between_blanks :
    let m : Machine := .ofOptions {}
    let s := "　E	"
    ',' ∉ s.toList ∧ AxisLetter.ofString s = .ok .e ∧
      m.applyDirectives (.ofLine (";" ++ Axis.z.directiveKey ++ ":" ++ s)) =
        (.ofOptions { axes := ⟨.x, .y, .e⟩ }, true) := by
  intro m s
  have hs : ',' ∉ s.toList := by decide +kernel
  have hok : AxisLetter.ofString s = .ok .e := by decide +kernel
  obtain ⟨-, haccepted, -⟩ := m.axis_spellings_agree .z hs
  exact ⟨hs, hok, (haccepted .e hok).1⟩

end Machine

end Toolpath
