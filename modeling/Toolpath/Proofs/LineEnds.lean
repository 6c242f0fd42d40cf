import Mathlib.Data.List.Chain
import Toolpath.Proofs.SameLines
import Toolpath.Proofs.TrailingBlanks

/-!
# Loads do not depend on line ends

The same lines can stand in a file with a line feed, a carriage return or both behind each of them,
in any mixture, and with or without an end behind the last. The cutter finds the lines again, and
where it trims the last one, the record stays. So all of these files load alike, and differ only in
the number of their bytes.
-/

namespace Toolpath

inductive LineEnd where
  | lineFeed
  | carriageReturn
  | both
deriving DecidableEq, Repr

def LineEnd.bytes : LineEnd → List UInt8
  | lineFeed => [Cutter.lineFeed]
  | carriageReturn => [Cutter.carriageReturn]
  | both => [Cutter.carriageReturn, Cutter.lineFeed]

/-- A line as it stands in a file, which may lack an end. -/
structure FileLine where
  content : List UInt8
  lineEnd : Option LineEnd
deriving DecidableEq, Repr

namespace FileLine

def record (line : FileLine) : Record := Record.ofText (Text.decodeLossy line.content)

def bytes (line : FileLine) : List UInt8 :=
  line.content ++ (line.lineEnd.map LineEnd.bytes).getD []

theorem bytes_of_none (content : List UInt8) : bytes ⟨content, none⟩ = content :=
  List.append_nil content

theorem bytes_of_some (content : List UInt8) (e : LineEnd) :
    bytes ⟨content, some e⟩ = content ++ e.bytes := rfl

def fileOf (lines : List FileLine) : List UInt8 := lines.flatMap bytes

/-- Whether `next` can stand behind `line`: `line` has an end, and this does not make one end with
the line feed of an empty line. -/
def MayPrecede (line next : FileLine) : Prop :=
  line.lineEnd ≠ none ∧ (line.lineEnd = some .carriageReturn → next ≠ ⟨[], some .lineFeed⟩)

instance (line next : FileLine) : Decidable (MayPrecede line next) :=
  inferInstanceAs (Decidable (_ ∧ _))

def IsInner (content : List UInt8) : Prop :=
  ∀ b ∈ content, b ≠ Cutter.lineFeed ∧ b ≠ Cutter.carriageReturn

instance (content : List UInt8) : Decidable (IsInner content) :=
  List.decidableBAll _ content

/-- Lines that a file can be made of: no line end is inside a line, none runs into the next, and
only a last line that is not blank lacks one. -/
structure AreApart (lines : List FileLine) : Prop where
  inner : ∀ line ∈ lines, IsInner line.content
  follow : lines.IsChain MayPrecede
  last : ∀ line ∈ lines, line.lineEnd = none →
    Text.trimEnd (Text.decodeLossy line.content) ≠ []

instance (lines : List FileLine) : Decidable (AreApart lines) :=
  decidable_of_iff ((∀ line ∈ lines, IsInner line.content) ∧ lines.IsChain MayPrecede ∧
      ∀ line ∈ lines, line.lineEnd = none → Text.trimEnd (Text.decodeLossy line.content) ≠ [])
    ⟨fun ⟨hinner, hfollow, hlast⟩ => ⟨hinner, hfollow, hlast⟩,
      fun ⟨hinner, hfollow, hlast⟩ => ⟨hinner, hfollow, hlast⟩⟩

theorem AreApart.tail {line : FileLine} {rest : List FileLine} (h : AreApart (line :: rest)) :
    AreApart rest where
  inner next hmem := h.inner next (List.mem_cons_of_mem _ hmem)
  follow := h.follow.tail
  last next hmem := h.last next (List.mem_cons_of_mem _ hmem)

theorem AreApart.eq_nil {line : FileLine} {rest : List FileLine} (h : AreApart (line :: rest))
    (hend : line.lineEnd = none) : rest = [] := by
  cases rest with
  | nil => rfl
  | cons next rest => exact absurd hend (List.isChain_cons_cons.1 h.follow).1.1

end FileLine

namespace Cutter

open FileLine

theorem feed_of_isInner (c : Cutter) {content : List UInt8} (h : IsInner content) :
    c.feed content = (⟨c.tail ++ content.toArray, c.bytes + content.length,
      c.afterReturn && content.isEmpty⟩, []) := by
  induction content generalizing c with
  | nil => simp [feed]
  | cons b rest ih =>
    obtain ⟨hfeed, hreturn⟩ := h b List.mem_cons_self
    have hrest : IsInner rest := fun a ha => h a (List.mem_cons_of_mem _ ha)
    rw [feed_cons, step_of_ne c hfeed hreturn, ih _ hrest]
    simp [Nat.add_assoc, Nat.add_comm 1]

/-- What a cutter makes of a line with an end: one line, and a fresh start behind it. -/
theorem feed_ended (c : Cutter) {content : List UInt8} {e : LineEnd} (hinner : IsInner content)
    (htail : c.tail = #[])
    (hreturn : c.afterReturn = true → ¬ (content = [] ∧ e = .lineFeed)) :
    ∃ (n n' : Nat), c.feed (content ++ e.bytes) =
      ({ bytes := n, afterReturn := e == .carriageReturn },
        [⟨String.ofList (Text.decodeLossy content), n'⟩]) := by
  rw [feed_append, feed_of_isInner c hinner, htail, Array.empty_append, List.nil_append]
  cases e with
  | lineFeed =>
    have hfresh : (c.afterReturn && content.isEmpty) = false := by
      cases hafter : c.afterReturn with
      | false => rfl
      | true => simpa using hreturn hafter
    rw [LineEnd.bytes, hfresh, feed_cons, step_lineFeed rfl]
    exact ⟨_, _, rfl⟩
  | carriageReturn =>
    rw [LineEnd.bytes, feed_cons, step_carriageReturn]
    exact ⟨_, _, rfl⟩
  | both =>
    rw [LineEnd.bytes, feed_cons, step_carriageReturn, feed_cons,
      step_lineFeed_of_afterReturn rfl]
    exact ⟨_, _, rfl⟩

/-- The records of the lines are found again, from whatever state that is not inside a line. -/
theorem records_fileOf {c : Cutter} {lines : List FileLine} (h : AreApart lines)
    (htail : c.tail = #[])
    (hreturn : c.afterReturn = true → lines.head? ≠ some ⟨[], some .lineFeed⟩) :
    c.records (fileOf lines) = lines.map FileLine.record := by
  induction lines generalizing c with
  | nil => simp [records, fileOf, feed, finish, tailText, htail]
  | cons line rest ih =>
    obtain ⟨content, lineEnd⟩ := line
    have hinner : IsInner content := h.inner _ List.mem_cons_self
    cases lineEnd with
    | none =>
      -- Only here the line is trimmed, which its record does not show.
      have hlast : Text.trimEnd (Text.decodeLossy content) ≠ [] := h.last _ List.mem_cons_self rfl
      rw [h.eq_nil rfl, fileOf, List.flatMap_singleton, bytes_of_none, records,
        feed_of_isInner c hinner, htail]
      simp [finish, tailText, hlast, Line.record, Record.ofLine, Record.ofText_trimEnd,
        FileLine.record]
    | some e =>
      have hstart : c.afterReturn = true → ¬ (content = [] ∧ e = .lineFeed) := by
        rintro hafter ⟨rfl, rfl⟩
        exact hreturn hafter rfl
      obtain ⟨n, n', hfeed⟩ := c.feed_ended hinner htail hstart
      rw [fileOf, List.flatMap_cons, bytes_of_some, records_append, hfeed]
      have hrest : Cutter.records { bytes := n, afterReturn := e == .carriageReturn }
          (fileOf rest) = rest.map FileLine.record := by
        refine ih h.tail rfl ?_
        intro he hhead
        obtain ⟨rest', rfl⟩ := List.head?_eq_some_iff.1 hhead
        have hfollow := (List.isChain_cons_cons.1 h.follow).1.2
        exact hfollow (congrArg some (beq_iff_eq.1 he)) rfl
      rw [fileOf] at hrest
      rw [hrest, List.map_singleton, Line.record, Record.ofLine, String.toList_ofList]
      rfl

end Cutter

/-- The lines of a file have the records of the lines that it is made of. -/
theorem FileLine.AreApart.records_eq {lines : List FileLine} (h : AreApart lines) :
    (Line.ofBytes (fileOf lines)).map Line.record = lines.map FileLine.record :=
  Cutter.records_fileOf (c := {}) h rfl (by simp)

namespace Loader

open FileLine (AreApart fileOf)

/-- Files of the same lines that differ in their line ends alone have as many lines each, with the
same records, and load alike but for the number of bytes. -/
theorem load_blind_to_line_ends {first second : List FileLine} (hfirst : AreApart first)
    (hsecond : AreApart second)
    (hsame : second.map FileLine.content = first.map FileLine.content) :
    (Line.ofBytes (fileOf first)).length = first.length ∧
    (Line.ofBytes (fileOf second)).length = first.length ∧
    (Line.ofBytes (fileOf second)).map Line.record =
      (Line.ofBytes (fileOf first)).map Line.record ∧
    ∀ (l l' : Loader) (script script' : Script) (total total' : Option Nat)
      (c c' : Cancellation) (summary summary' : LoadSummary),
      script.delivered = fileOf first → script'.delivered = fileOf second →
      l'.mode = l.mode → l'.machine.options = l.machine.options →
      (l.load script total c).result = .ok summary →
      (l'.load script' total' c').result = .ok summary' →
      (l'.load script' total' c').Agrees
        ((l.load script total c).withBytes (fileOf second).length) := by
  have hrecords : (Line.ofBytes (fileOf second)).map Line.record =
      (Line.ofBytes (fileOf first)).map Line.record := by
    have hcontents := congrArg (List.map fun content => Record.ofText (Text.decodeLossy content))
      hsame
    rw [List.map_map, List.map_map] at hcontents
    rw [hfirst.records_eq, hsecond.records_eq]
    exact hcontents
  have hlength : (Line.ofBytes (fileOf first)).length = first.length := by
    simpa using congrArg List.length hfirst.records_eq
  have hlength' : (Line.ofBytes (fileOf second)).length =
      (Line.ofBytes (fileOf first)).length := by
    simpa using congrArg List.length hrecords
  refine ⟨hlength, hlength'.trans hlength, hrecords, ?_⟩
  intro l l' script script' total total' c c' summary summary' hbytes hbytes' hmode hoptions
    hload hload'
  rw [← hbytes']
  refine load_agrees_of_records hmode hoptions ?_ hload hload'
  have htold := congrArg (List.map Record.withoutComment) hrecords
  rw [List.map_map, List.map_map] at htold
  rw [hbytes, hbytes']
  exact htold

/-- All three line ends on both sides, an empty line behind a carriage return, and a last line
that is trimmed only where its end is missing. -/
theorem load_blind_to_line_ends_mixed :
    let l : Loader := { machine := .ofOptions {}, chunkSize := 4 }
    let contents := [";z_axis:e", "", "G1 E3 ;up\t", "G1 x2 Σ\u3000"].map
      fun content : String => content.toUTF8.data.toList
    let first := contents.zipWith FileLine.mk [some .both, some .lineFeed, some .both, none]
    let second := contents.zipWith FileLine.mk
      [some .carriageReturn, some .carriageReturn, some .lineFeed, some .both]
    let outcome := l.load (.ofBytes (fileOf first)) none {}
    outcome.segments.length = 2 ∧
      (l.load (.ofBytes (fileOf second)) none .never).Agrees
        (outcome.withBytes (fileOf second).length) := by
  intro l contents first second outcome
  have hapart : AreApart first ∧ AreApart second := by decide +kernel
  have hcalm : (Script.ofBytes (fileOf first)).IsCalm ∧
      (Script.ofBytes (fileOf second)).IsCalm := by
    decide +kernel
  have hload := (l.load_isLoadOf_of_isCalm hcalm.1 none (c := {}) rfl).result
  have hload' := (l.load_isLoadOf_of_isCalm hcalm.2 none (c := .never) rfl).result
  have hagree := (load_blind_to_line_ends hapart.1 hapart.2 (by decide +kernel)).2.2.2
  exact ⟨by decide +kernel, hagree l l _ _ _ _ _ _ _ _ (Script.delivered_ofBytes _)
    (Script.delivered_ofBytes _) rfl rfl hload hload'⟩

end Loader

end Toolpath
