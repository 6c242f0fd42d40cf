import Toolpath.Proofs.Completion
import Toolpath.Proofs.Directives
import Toolpath.Proofs.Moves

/-!
# Line numbers of segments

Every line that asks for a move gives one segment, no other line gives any, and the segment carries
the number of its line. The trace of a load has one position for every line, and a segment ends at
the position that its own line has in the trace.
-/

namespace Toolpath

/-- What records make of the machine `m`, if `m'` and `segments` come of them: one more position for
each record, and one segment for each move, numbered on from the lines of `m`. -/
structure Machine.Numbers (m m' : Machine) (records : List Record) (segments : List Segment) :
    Prop where
  trace : ∃ positions : List Position, positions.length = records.length ∧
    m'.trace.toList = m.trace.toList ++ positions
  sourceLines : segments.map Segment.sourceLine =
    ((records.zipIdx (m.modal.lineCount + 1)).filter fun p => p.1.isMove).map Prod.snd
  segment : ∀ s ∈ segments, ∃ k r, records[k]? = some r ∧
    s.sourceLine = m.modal.lineCount + 1 + k ∧ r.Draws s.shape ∧
    m'.trace.toList[m.trace.toList.length + k]? = some s.stop

namespace Load

/-- Directives are followed before a record, and leave lines, tool and trace as they are. -/
theorem exists_takeRecord_eq (mode : LoadMode) (m : Machine) (r : Record) :
    ∃ settled : Machine, takeRecord mode m r = settled.process r ∧ settled.trace = m.trace ∧
      settled.modal.lineCount = m.modal.lineCount ∧ settled.modal.position = m.modal.position := by
  cases mode with
  | initial =>
    refine ⟨(m.applyDirectives r).1, rfl, ?_⟩
    rw [Machine.applyDirectives_fst]
    exact ⟨rfl, rfl, rfl⟩
  | rerun => exact ⟨m, rfl, rfl, rfl, rfl⟩

/-- One record: one more line, one more position, and a segment if and only if it is a move. -/
theorem takeRecord_numbers (mode : LoadMode) (m : Machine) (r : Record) :
    (takeRecord mode m r).1.modal.lineCount = m.modal.lineCount + 1 ∧
    (takeRecord mode m r).1.trace.toList =
      m.trace.toList ++ [(takeRecord mode m r).1.modal.position] ∧
    (takeRecord mode m r).2.isSome = r.isMove ∧
    ∀ s, (takeRecord mode m r).2 = some s →
      s.sourceLine = m.modal.lineCount + 1 ∧ r.Draws s.shape ∧
        s.stop = (takeRecord mode m r).1.modal.position := by
  obtain ⟨settled, heq, htrace, hcount, -⟩ := exists_takeRecord_eq mode m r
  rw [heq, ← hcount, ← htrace]
  refine ⟨rfl, Array.toList_push, settled.modal.isSome_step r, ?_⟩
  intro s hs
  obtain ⟨-, hstop, hline, hdraws⟩ := Modal.step_of_some hs
  exact ⟨hline, hdraws, hstop⟩

theorem run_numbers (mode : LoadMode) (m : Machine) (records : List Record) :
    m.Numbers (Transducer.run (takeRecord mode) m records).1 records
      (Transducer.run (takeRecord mode) m records).2 := by
  induction records generalizing m with
  | nil =>
    refine ⟨⟨[], rfl, (List.append_nil _).symm⟩, rfl, ?_⟩
    intro s hs
    cases hs
  | cons r rest ih =>
    obtain ⟨hcount, htrace, hsome, hsegment⟩ := takeRecord_numbers mode m r
    obtain ⟨⟨positions, hlength, hrest⟩, hlines, hlater⟩ := ih (takeRecord mode m r).1
    rw [Transducer.run_cons]
    rw [htrace, List.append_assoc, List.singleton_append] at hrest
    refine ⟨⟨_, by simp [hlength], hrest⟩, ?_, ?_⟩
    · rw [List.map_append, hlines, hcount, List.zipIdx_cons, List.filter_cons]
      cases hr : (takeRecord mode m r).2 with
      | none =>
        rw [hr] at hsome
        rw [← hsome]
        rfl
      | some s =>
        have hmove : r.isMove = true := by rw [← hsome, hr, Option.isSome_some]
        rw [if_pos hmove, List.map_cons, ← (hsegment s hr).1]
        rfl
    · intro s hs
      rcases List.mem_append.1 hs with hfirst | hnext
      · obtain ⟨hline, hdraws, hstop⟩ := hsegment s (Option.mem_toList.1 hfirst)
        refine ⟨0, r, rfl, hline, hdraws, ?_⟩
        rw [hrest, Nat.add_zero, List.getElem?_append_right (Nat.le_refl _), Nat.sub_self, hstop]
        rfl
      · obtain ⟨k, later, hget, hline, hdraws, hstop⟩ := hlater s hnext
        refine ⟨k + 1, later, hget, ?_, hdraws, ?_⟩
        · omega
        · rw [htrace, List.length_append, List.length_singleton] at hstop
          rw [← hstop]
          congr 1
          omega

end Load

namespace Loader

/-- The segments of a load that completes carry the numbers of the lines that ask for a move, and
each has the shape that its line asks for and ends where the trace has the position of its line. -/
theorem segments_numbered_by_line (l : Loader) {script : Script} {total : Option Nat}
    {c : Cancellation} {summary : LoadSummary}
    (h : (l.load script total c).result = .ok summary) :
    let lines := Line.ofBytes script.delivered
    let segments := (l.load script total c).segments
    ∃ positions, (l.load script total c).trace = some positions ∧
      positions.length = lines.length ∧ summary.lines = positions.length ∧
      summary.segments = segments.length ∧
      segments.map Segment.sourceLine =
        ((lines.zipIdx 1).filter fun p => p.1.record.isMove).map Prod.snd ∧
      ∀ s ∈ segments, ∃ line, lines[s.sourceLine - 1]? = some line ∧
        line.record.Draws s.shape ∧ positions[s.sourceLine - 1]? = some s.stop := by
  intro lines segments
  have hload := load_isLoadOf_of_ok h
  have hsegments : segments = (Load.ofLines l.mode l.machine.options lines).2 := hload.segments_eq
  have hsummary := hload.result
  rw [h] at hsummary
  cases hsummary
  obtain ⟨⟨positions, hlength, htrace⟩, hlines, hsegment⟩ :=
    Load.run_numbers l.mode (.ofOptions l.machine.options) (lines.map Line.record)
  rw [← Load.ofLines_eq] at htrace hlines hsegment
  have hpositions : (Load.ofLines l.mode l.machine.options lines).1.trace.toList = positions := htrace
  have hcount : positions.length = lines.length := by rw [hlength, List.length_map]
  refine ⟨positions, ?_, hcount, hcount.symm, ?_, ?_, ?_⟩
  · rw [hload.trace_eq, hpositions]
  · rw [hsegments]
  · rw [hsegments, hlines, List.zipIdx_map, List.filter_map, List.map_map]
    rfl
  · rw [hsegments]
    intro s hs
    obtain ⟨k, r, hget, hline, hdraws, hstop⟩ := hsegment s hs
    rw [List.getElem?_map, Option.map_eq_some_iff] at hget
    obtain ⟨line, hget, rfl⟩ := hget
    have hk : s.sourceLine - 1 = k := by
      have hfirst : s.sourceLine = 0 + 1 + k := hline
      omega
    rw [hk]
    refine ⟨line, hget, hdraws, ?_⟩
    rw [hpositions] at hstop
    rw [← hstop]
    congr 1
    exact (Nat.zero_add k).symm

/-- The first read ends inside a line end, the second line is blank, and blanks end the last line. -/
theorem segments_numbered_by_line_cut :
    let l : Loader := { machine := .ofOptions {}, chunkSize := 10 }
    let bytes : List UInt8 := ";z_axis:e\r\n\r\nG1 E3\nM5\nG3 X1 I1  ".toUTF8.data.toList
    let outcome := l.load (.ofBytes bytes) none {}
    ∃ positions, outcome.trace = some positions ∧ positions.length = 5 ∧
      outcome.segments.map Segment.sourceLine = [3, 5] ∧
      ∀ s ∈ outcome.segments, positions[s.sourceLine - 1]? = some s.stop := by
  intro l bytes outcome
  have hcalm : (Script.ofBytes bytes).IsCalm := by decide +kernel
  have hresult := (l.load_isLoadOf_of_isCalm hcalm none (c := {}) rfl).result
  obtain ⟨positions, htrace, hlength, -, -, hlines, hsegment⟩ :=
    segments_numbered_by_line l hresult
  rw [Script.delivered_ofBytes] at hlength hlines hsegment
  refine ⟨positions, htrace, ?_, ?_, ?_⟩
  · rw [hlength]
    decide +kernel
  · rw [hlines]
    decide +kernel
  · intro s hs
    obtain ⟨line, -, -, hstop⟩ := hsegment s hs
    exact hstop

end Loader

end Toolpath
