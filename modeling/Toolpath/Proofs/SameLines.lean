import Toolpath.Proofs.Completion

/-!
# Files with the same records

What a load gives depends on the lines of its bytes only through their records, and on these not
through the texts of their comments. So files whose lines have the same records load alike: only the
number of bytes may tell them apart.
-/

namespace Toolpath

/-- The record without the text of its comment, of which the tags are kept. -/
def Record.withoutComment (r : Record) : Record := { r with comment := none }

namespace Cutter

/-- The records of all lines that a cutter hands out for the bytes to come. -/
def records (c : Cutter) (bytes : List UInt8) : List Record :=
  ((c.feed bytes).2 ++ Batch.linesOf (c.feed bytes).1.finish.2).map Line.record

theorem records_append (c : Cutter) (first rest : List UInt8) :
    c.records (first ++ rest) =
      (c.feed first).2.map Line.record ++ (c.feed first).1.records rest := by
  rw [records, records, feed_append, List.append_assoc, List.map_append]

end Cutter

namespace Load

theorem takeRecord_withoutComment (mode : LoadMode) (m : Machine) (r : Record) :
    takeRecord mode m r.withoutComment = takeRecord mode m r := by
  cases mode <;> rfl

theorem ofLines_congr (mode : LoadMode) (o : Options) {lines lines' : List Line}
    (h : lines.map (fun line => line.record.withoutComment) =
      lines'.map fun line => line.record.withoutComment) :
    ofLines mode o lines = ofLines mode o lines' := by
  have hrecords : ∀ lines : List Line, ofLines mode o lines =
      Transducer.run (takeRecord mode) (.ofOptions o)
        (lines.map fun line => line.record.withoutComment) := by
    intro lines
    rw [ofLines_eq, Transducer.run_map, Transducer.run_map]
    simp only [takeRecord_withoutComment]
  rw [hrecords, hrecords, h]

end Load

namespace LoadOutcome

/-- The outcome with another number of bytes in its summary. -/
def withBytes (outcome : LoadOutcome) (n : Nat) : LoadOutcome :=
  { outcome with result := outcome.result.map fun summary => { summary with bytes := n } }

theorem IsLoadOf.withBytes_self {outcome : LoadOutcome} {mode : LoadMode} {o : Options}
    {bytes : List UInt8} (h : outcome.IsLoadOf mode o bytes) :
    outcome.withBytes bytes.length = outcome := by
  have hresult : outcome.result.map (fun summary => { summary with bytes := bytes.length }) =
      outcome.result := by
    rw [h.result]
    rfl
  rw [withBytes, hresult]

theorem IsLoadOf.agrees_withBytes {outcome other : LoadOutcome} {mode : LoadMode} {o : Options}
    {bytes bytes' : List UInt8} (h : outcome.IsLoadOf mode o bytes)
    (hother : other.IsLoadOf mode o bytes')
    (hsame : (Line.ofBytes bytes').map (fun line => line.record.withoutComment) =
      (Line.ofBytes bytes).map fun line => line.record.withoutComment) :
    other.Agrees (outcome.withBytes bytes'.length) := by
  have hlines := Load.ofLines_congr mode o hsame
  have hlength : (Line.ofBytes bytes').length = (Line.ofBytes bytes).length := by
    simpa using congrArg List.length hsame
  have hresult : (outcome.withBytes bytes'.length).result = .ok
      { lines := (Line.ofBytes bytes).length
        segments := (Load.ofLines mode o (Line.ofBytes bytes)).2.length
        bytes := bytes'.length } := by
    rw [withBytes, h.result]
    rfl
  constructor
  · rw [hother.result, hresult, hlines, hlength]
  · rw [hother.segments_eq, hlines, ← h.segments_eq]
    rfl
  · rw [hother.trace_eq, hlines, ← h.trace_eq]
    rfl
  · rw [hother.machine, hlines, ← h.machine]
    rfl

end LoadOutcome

/-- Completed loads of files with the same records agree but for the number of bytes. -/
theorem Loader.load_agrees_of_records {l l' : Loader} (hmode : l'.mode = l.mode)
    (hoptions : l'.machine.options = l.machine.options) {first second : Script}
    (hsame : (Line.ofBytes second.delivered).map (fun line => line.record.withoutComment) =
      (Line.ofBytes first.delivered).map fun line => line.record.withoutComment)
    {total total' : Option Nat} {c c' : Cancellation} {summary summary' : LoadSummary}
    (hfirst : (l.load first total c).result = .ok summary)
    (hsecond : (l'.load second total' c').result = .ok summary') :
    (l'.load second total' c').Agrees
      ((l.load first total c).withBytes second.delivered.length) := by
  have hload := load_isLoadOf_of_ok hfirst
  have hother := load_isLoadOf_of_ok hsecond
  rw [hmode, hoptions] at hother
  exact hload.agrees_withBytes hother hsame

end Toolpath
