import Toolpath.Program
import Toolpath.Proofs.JsonLines
import Toolpath.Proofs.Numbering

/-!
# What a run prints

Records are printed by cutting the file into lines only, all else by loading it. Both take the same
lines, so the outputs of a file describe one another: `written` says what each of them is without
reading in chunks, and the read size leaves no trace in any.
-/

namespace Toolpath

theorem Script.flatten_cutInto (size : Nat) (chunk : List UInt8) :
    (cutInto size chunk #[]).toList.flatten = chunk := by
  by_cases h : chunk = []
  · rw [h, cutInto_nil]
    rfl
  · obtain ⟨first, rest, hparts, hflat, -⟩ := exists_cutInto size #[] h
    rw [hparts]
    exact hflat

/-- Whether a text starts like an object whose first field, its type, has this value. -/
def Json.isOfType (type : String) (text : List Char) : Bool :=
  ('\x7b' :: quoted "type" ++ ':' :: quoted type).isPrefixOf text

/-- Every segment is printed as a line or as an arc. -/
theorem Segment.isOfType_compact (s : Segment) :
    Json.isOfType "line" s.toJson.compact = !s.shape.isArc ∧
      Json.isOfType "arc" s.toJson.compact = s.shape.isArc := by
  obtain ⟨shape, start, stop, feedrate, sourceLine⟩ := s
  cases shape with
  | line => exact ⟨rfl, rfl⟩
  | arc => exact ⟨rfl, rfl⟩

/-- The tally counts the segments that are printed as lines and those that are printed as arcs. -/
theorem Tally.counts_printed (segments : List Segment) :
    let texts := segments.map fun s => s.toJson.compact
    let t := segments.foldl addSegment {}
    t.lines = texts.countP (Json.isOfType "line") ∧ t.arcs = texts.countP (Json.isOfType "arc") ∧
      t.lines + t.arcs = texts.length := by
  intro texts t
  obtain ⟨hlines, harcs⟩ := foldl_addSegment {} segments
  rw [Nat.zero_add] at hlines harcs
  refine ⟨?_, ?_, ?_⟩
  · rw [hlines, List.countP_map]
    exact congrArg (segments.countP ·) (funext fun s => s.isOfType_compact.1).symm
  · rw [harcs, List.countP_map]
    exact congrArg (segments.countP ·) (funext fun s => s.isOfType_compact.2).symm
  · rw [List.length_map]
    exact lines_add_arcs segments

/-- What a command line asks for together with a settings file, with this output and read size. -/
def Settings.asking (a : Arguments) (file : FileSettings) (path : Option String) (emit : EmitMode)
    (size : Nat) : Settings :=
  merge { a with choices := { a.choices with emit := some emit, chunkSize := some size } } file path

namespace Program

/-- What is printed of a file whose lines are taken one after the other. -/
def written (emit : EmitMode) (mode : LoadMode) (o : Options) (contents : List UInt8) :
    List (List Char) :=
  let lines := Line.ofBytes contents
  let (machine, segments) := Load.ofLines mode o lines
  match emit with
  | .records => lines.map fun line => line.record.toJson.compact
  | .segments => segments.map fun segment => segment.toJson.compact
  | .trace => machine.trace.toList.map fun p => p.toJsonList.compact
  | .summary =>
    let summary : LoadSummary := ⟨lines.length, segments.length, contents.length⟩
    [(summary.toJson (segments.foldl Tally.addSegment {})).pretty]

theorem records_eq (s : Settings) (contents : List UInt8) :
    records s contents = (Line.ofBytes contents).map Line.record := by
  rw [records, Batch.ofChunks_lines, Script.flatten_cutInto]

/-- Every output succeeds, and the read size has no influence on it. -/
theorem output_eq (s : Settings) (contents : List UInt8) :
    output s contents = .ok (written s.emit (loader s).mode s.options contents) := by
  have hload : ((loader s).loadFile contents .never).IsLoadOf (loader s).mode s.options contents :=
    (loader s).loadFile_isLoadOf contents rfl
  unfold output written
  cases s.emit with
  | records =>
    rw [records_eq, List.map_map]
    rfl
  | segments =>
    simp only [hload.result, hload.segments_eq]
    rfl
  | trace =>
    simp only [hload.result, hload.trace_eq]
    rfl
  | summary =>
    have hsegments := hload.segments_eq
    rw [LoadOutcome.segments] at hsegments
    simp only [hload.result, Tally.ofReports_eq, hsegments]
    rfl

/-- The lines of the text that a run prints for a file. -/
def printed (s : Settings) (contents : List UInt8) : Except Error (List (List Char)) :=
  (output s contents).map fun values =>
    (Text.splitLines ((Exit.done values).report "").2.toList).1

/-- Values in the compact layout are printed one per line. -/
theorem printed_of_compact {α : Type} {s : Settings} {contents : List UInt8} {f : α → Json}
    {values : List α} (h : output s contents = .ok (values.map fun x => (f x).compact)) :
    printed s contents = .ok (values.map fun x => (f x).compact) := by
  have hlines : ∀ line ∈ values.map fun x => (f x).compact, Text.IsOneLine line := by
    rw [List.forall_mem_map]
    exact fun x _ => (f x).isOneLine_compact
  rw [printed, h]
  change Except.ok _ = _
  simp only [Exit.report, String.toList_ofList, Text.splitLines_closed hlines]

theorem length_trace_ofLines (mode : LoadMode) (o : Options) (lines : List Line) :
    (Load.ofLines mode o lines).1.trace.toList.length = lines.length := by
  rw [Load.ofLines_eq]
  obtain ⟨positions, hlength, htrace⟩ :=
    (Load.run_numbers mode (.ofOptions o) (lines.map Line.record)).trace
  rw [htrace, List.length_append, hlength, List.length_map]
  exact Nat.zero_add _

/-- What the outputs of one file have to do with one another, whatever the options are.

Records are printed one for each line of the file, and so are positions. The summary gives the
number of lines and that of bytes, and counts the segments that are printed, among them those that
are printed as lines and as arcs, of which one is each. The read size has no influence on any. -/
theorem emit_modes_agree (a : Arguments) (file : FileSettings) (path : Option String)
    (contents : List UInt8) (size : Nat) :
    let settings (emit : EmitMode) : Settings := .asking a file path emit size
    let lines := Line.ofBytes contents
    ∃ (positions segments : List (List Char)) (bounds : Json),
      printed (settings .records) contents =
        .ok (lines.map fun line => (Record.ofLine line.text).toJson.compact) ∧
      printed (settings .trace) contents = .ok positions ∧
      positions.length = lines.length ∧
      printed (settings .segments) contents = .ok segments ∧
      output (settings .summary) contents = .ok [(Json.object [
        ("lines", .nat lines.length),
        ("bytes", .nat contents.length),
        ("primitives", .nat segments.length),
        ("lines_out", .nat (segments.countP (Json.isOfType "line"))),
        ("arcs", .nat (segments.countP (Json.isOfType "arc"))),
        ("bounds", bounds)]).pretty] ∧
      segments.countP (Json.isOfType "line") + segments.countP (Json.isOfType "arc") =
        segments.length ∧
      ∀ emit size', output (.asking a file path emit size') contents =
        output (settings emit) contents := by
  intro settings lines
  let mode := (loader (settings .summary)).mode
  let o := (settings .summary).options
  let machine := (Load.ofLines mode o lines).1
  let segments := (Load.ofLines mode o lines).2
  have houtput : ∀ emit size', output (.asking a file path emit size') contents =
      .ok (written emit mode o contents) := fun emit size' => output_eq _ contents
  obtain ⟨hlines, harcs, hsum⟩ := Tally.counts_printed segments
  refine ⟨machine.trace.toList.map fun p => p.toJsonList.compact,
    segments.map fun s => s.toJson.compact,
    .ofOption Bounds.toJson (segments.foldl Tally.addSegment {}).bounds,
    printed_of_compact (houtput .records size), printed_of_compact (houtput .trace size), ?_,
    printed_of_compact (houtput .segments size), ?_, ?_, fun emit size' => ?_⟩
  · rw [List.length_map]
    exact length_trace_ofLines mode o lines
  · rw [← hlines, ← harcs, List.length_map]
    exact houtput .summary size
  · rw [← hlines, ← harcs, hsum]
  · exact (houtput emit size').trans (houtput emit size).symm

end Program

end Toolpath
