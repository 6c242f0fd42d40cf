import Toolpath.Proofs.Answers

/-!
# Loads that complete

A load that completes is determined by its mode, its options and the bytes of its stream: it takes
the lines of the bytes one after the other, starting from the options. Neither the cuts of the
stream nor what the machine did before have an influence. The loads under way keep `Load.HasRead`,
which says that they stand where one read of all bytes so far would have left them.
-/

namespace Toolpath

namespace Load

/-- What the lines of a file do to a machine one after the other, and the segments that they draw. A
first load follows the directives of each line before it processes the line, and a rerun follows
none. -/
def through (mode : LoadMode) (m : Machine) : List Line → Machine × List Segment
  | [] => (m, [])
  | line :: rest =>
    let r := Record.ofLine line.text
    let directed := if mode = .initial then (m.applyDirectives r).1 else m
    let (after, segment) := directed.process r
    let (last, segments) := through mode after rest
    (last, segment.toList ++ segments)

/-- The machine and the segments after lines taken one after the other, from fresh options. -/
def ofLines (mode : LoadMode) (o : Options) (lines : List Line) : Machine × List Segment :=
  through mode (.ofOptions o) lines

theorem takeLine_eq (mode : LoadMode) (m : Machine) (line : Line) :
    takeLine mode m line =
      (if mode = .initial then (m.applyDirectives (.ofLine line.text)).1 else m).process
        (.ofLine line.text) := by
  cases mode <;> rfl

theorem through_eq_run (mode : LoadMode) (m : Machine) (lines : List Line) :
    through mode m lines = Transducer.run (takeLine mode) m lines := by
  induction lines generalizing m with
  | nil => rfl
  | cons line rest ih => rw [Transducer.run_cons, takeLine_eq, ← ih, through]

theorem ofLines_eq (mode : LoadMode) (o : Options) (lines : List Line) :
    ofLines mode o lines =
      Transducer.run (takeRecord mode) (.ofOptions o) (lines.map Line.record) := by
  rw [ofLines, through_eq_run, Transducer.run_map]
  rfl

theorem ofLines_append (mode : LoadMode) (o : Options) (first second : List Line) :
    ofLines mode o (first ++ second) =
      ((Transducer.run (takeLine mode) (ofLines mode o first).1 second).1,
        (ofLines mode o first).2 ++
          (Transducer.run (takeLine mode) (ofLines mode o first).1 second).2) := by
  simp only [ofLines, through_eq_run]
  exact Transducer.run_append (takeLine mode) (.ofOptions o) first second

end Load

/-- The outcome of a load that takes the lines of `bytes` and completes: its result, and all that
it hands over, where the trace comes once and last. -/
structure LoadOutcome.IsLoadOf (outcome : LoadOutcome) (mode : LoadMode) (o : Options)
    (bytes : List UInt8) : Prop where
  result : outcome.result = .ok
    { lines := (Line.ofBytes bytes).length
      segments := (Load.ofLines mode o (Line.ofBytes bytes)).2.length
      bytes := bytes.length }
  handovers : ∃ reports : List BatchReport,
    outcome.handovers = reports.map .batch ++
      [.trace (Load.ofLines mode o (Line.ofBytes bytes)).1.trace.toList] ∧
    reports.flatMap BatchReport.segments = (Load.ofLines mode o (Line.ofBytes bytes)).2
  machine : outcome.machine = (Load.ofLines mode o (Line.ofBytes bytes)).1

/-- Two outcomes that differ at most in how the lines were batched. -/
structure LoadOutcome.Agrees (outcome other : LoadOutcome) : Prop where
  result : outcome.result = other.result
  segments : outcome.segments = other.segments
  trace : outcome.trace = other.trace
  machine : outcome.machine = other.machine

/-- The outcome of a load that was cancelled or failed: nothing of it is left in the machine, and no
trace is handed over. -/
structure LoadOutcome.IsAbandoned (outcome : LoadOutcome) (o : Options) : Prop where
  result : outcome.result = .error .cancelled ∨ ∃ reason, outcome.result = .error (.io reason)
  handovers : ∃ reports : List BatchReport, outcome.handovers = reports.map .batch
  machine : outcome.machine = .ofOptions o

namespace LoadOutcome

theorem filterMap_report?_batch (reports : List BatchReport) :
    (reports.map Handover.batch).filterMap Handover.report? = reports := by
  induction reports with
  | nil => rfl
  | cons report rest ih => simp [Handover.report?, ih]

theorem findSome?_trace?_batch (reports : List BatchReport) :
    (reports.map Handover.batch).findSome? Handover.trace? = none := by
  induction reports with
  | nil => rfl
  | cons report rest ih => simp [Handover.trace?]

variable {outcome : LoadOutcome} {mode : LoadMode} {o : Options} {bytes : List UInt8}

theorem IsLoadOf.segments_eq (h : outcome.IsLoadOf mode o bytes) :
    outcome.segments = (Load.ofLines mode o (Line.ofBytes bytes)).2 := by
  obtain ⟨reports, hhand, hseg⟩ := h.handovers
  rw [segments, LoadOutcome.reports, hhand, List.filterMap_append, filterMap_report?_batch, ← hseg]
  simp [Handover.report?]

theorem IsLoadOf.trace_eq (h : outcome.IsLoadOf mode o bytes) :
    outcome.trace = some (Load.ofLines mode o (Line.ofBytes bytes)).1.trace.toList := by
  obtain ⟨reports, hhand, -⟩ := h.handovers
  rw [trace, hhand, List.findSome?_append, findSome?_trace?_batch]
  rfl

/-- Loads of the same bytes agree as soon as their lines leave and draw the same. -/
theorem IsLoadOf.agrees {other : LoadOutcome} {mode' : LoadMode} {o' : Options}
    (h : outcome.IsLoadOf mode o bytes) (hother : other.IsLoadOf mode' o' bytes)
    (hlines : Load.ofLines mode o (Line.ofBytes bytes) =
      Load.ofLines mode' o' (Line.ofBytes bytes)) : outcome.Agrees other := by
  constructor
  · rw [h.result, hother.result, hlines]
  · rw [h.segments_eq, hother.segments_eq, hlines]
  · rw [h.trace_eq, hother.trace_eq, hlines]
  · rw [h.machine, hother.machine, hlines]

theorem IsAbandoned.result_ne (h : outcome.IsAbandoned o) (summary : LoadSummary) :
    outcome.result ≠ .ok summary := by
  intro hok
  rcases h.result with herror | ⟨reason, herror⟩ <;> rw [hok] at herror <;> cases herror

theorem IsAbandoned.trace_eq (h : outcome.IsAbandoned o) : outcome.trace = none := by
  obtain ⟨reports, hhand⟩ := h.handovers
  rw [trace, hhand, findSome?_trace?_batch]

end LoadOutcome

namespace Load

/-- A load under way that has taken these lines, whatever its batches were. -/
structure HasTaken (load : Load) (lines : List Line) : Prop where
  machine : load.machine = (ofLines load.mode load.options lines).1
  handovers : ∃ reports : List BatchReport, load.handovers.toList = reports.map .batch ∧
    reports.flatMap BatchReport.segments = (ofLines load.mode load.options lines).2
  lines_eq : load.lines = lines.length
  segments_eq : load.segments = (ofLines load.mode load.options lines).2.length

/-- A load under way that has read these bytes, whatever the cuts between them were. -/
structure HasRead (load : Load) (bytes : List UInt8) : Prop where
  cutter : load.cutter = (({} : Cutter).feed bytes).1
  taken : load.HasTaken (({} : Cutter).feed bytes).2

variable {load : Load} {lines : List Line} {bytes : List UInt8}

theorem HasTaken.takeBatch (h : load.HasTaken lines) (batch : Batch) :
    (load.takeBatch batch).HasTaken (lines ++ batch.lines) := by
  obtain ⟨reports, hhand, hseg⟩ := h.handovers
  let more := Transducer.run (takeLine load.mode) load.machine batch.lines
  have happ : ofLines load.mode load.options (lines ++ batch.lines) =
      (more.1, (ofLines load.mode load.options lines).2 ++ more.2) := by
    rw [ofLines_append, ← h.machine]
  constructor
  · rw [takeBatch_mode, takeBatch_options, happ]
    rfl
  · refine ⟨reports ++ [⟨⟨batch.bytes, load.total⟩, more.2⟩], ?_, ?_⟩
    · simp [Load.takeBatch, hhand, more]
    · rw [takeBatch_mode, takeBatch_options, happ, List.flatMap_append, hseg]
      simp
  · rw [List.length_append, ← h.lines_eq]
    rfl
  · rw [takeBatch_mode, takeBatch_options, happ, List.length_append, ← h.segments_eq]
    rfl

theorem HasTaken.takeBatch? (h : load.HasTaken lines) (batch : Option Batch) :
    (load.takeBatch? batch).HasTaken (lines ++ Batch.linesOf batch) := by
  cases batch with
  | none => rwa [Batch.linesOf_none, List.append_nil]
  | some batch => exact h.takeBatch batch

theorem HasTaken.withCutter (h : load.HasTaken lines) (cutter : Cutter) :
    { load with cutter := cutter }.HasTaken lines :=
  ⟨h.machine, h.handovers, h.lines_eq, h.segments_eq⟩

theorem hasRead_start (mode : LoadMode) (total : Option Nat) (m : Machine) :
    (start mode total m).HasRead [] where
  cutter := rfl
  taken := ⟨rfl, ⟨[], rfl, rfl⟩, rfl, rfl⟩

theorem HasRead.takeChunk (h : load.HasRead bytes) (chunk : List UInt8) :
    (load.takeChunk chunk).HasRead (bytes ++ chunk) := by
  have happ := Cutter.feed_append {} bytes chunk
  rw [← h.cutter] at happ
  constructor
  · rw [takeChunk_cutter, happ]
  · have htaken := (h.taken.withCutter (load.cutter.push chunk).1).takeBatch?
      (load.cutter.push chunk).2
    rw [Cutter.linesOf_push] at htaken
    rw [happ]
    exact htaken

theorem HasRead.takeEnd (h : load.HasRead bytes) : load.takeEnd.HasTaken (Line.ofBytes bytes) := by
  have htaken := (h.taken.withCutter load.cutter.finish.1).takeBatch? load.cutter.finish.2
  have hlines : (({} : Cutter).feed bytes).2 ++ Batch.linesOf load.cutter.finish.2 =
      Line.ofBytes bytes := by
    rw [h.cutter]
    rfl
  rw [hlines] at htaken
  exact htaken

theorem HasRead.complete (h : load.HasRead bytes) :
    load.complete.IsLoadOf load.mode load.options bytes := by
  obtain ⟨hmachine, ⟨reports, hhand, hseg⟩, hlen, hcount⟩ := h.takeEnd
  rw [takeEnd_mode, takeEnd_options] at hmachine hseg hcount
  have hbytes : load.takeEnd.cutter.bytes = bytes.length := by
    rw [takeEnd_cutter]
    change load.cutter.bytes = bytes.length
    rw [h.cutter, Cutter.feed_bytes, Nat.zero_add]
  constructor
  · rw [Load.complete, close, hlen, hcount, hbytes]
  · refine ⟨reports, ?_, hseg⟩
    rw [Load.complete, close, Array.toList_push, hhand, hmachine]
  · exact hmachine

theorem HasRead.abandon (h : load.HasRead bytes) {error : Error}
    (herror : error = .cancelled ∨ ∃ reason, error = .io reason) :
    (load.abandon error).IsAbandoned load.options := by
  obtain ⟨reports, hhand, -⟩ := h.taken.handovers
  refine ⟨?_, ⟨reports, hhand⟩, rfl⟩
  rcases herror with rfl | ⟨reason, rfl⟩
  · exact .inl rfl
  · exact .inr ⟨reason, rfl⟩

theorem HasRead.takeEvent (h : load.HasRead bytes) (event : ReadEvent) :
    (load.takeEvent event).HasRead (bytes ++ event.chunk) := by
  cases event with
  | pending | cancel | release =>
    change load.HasRead (bytes ++ [])
    rwa [List.append_nil]
  | answer a cancelling =>
    cases a with
    | failed reason | interrupted reason =>
      change load.HasRead (bytes ++ [])
      rwa [List.append_nil]
    | bytes chunk => exact h.takeChunk chunk

theorem HasRead.endWith (h : load.HasRead bytes) (a : Answer) :
    (load.endWith a).IsLoadOf load.mode load.options bytes ∨
      (load.endWith a).IsAbandoned load.options := by
  cases a with
  | bytes chunk => exact .inl h.complete
  | failed reason | interrupted reason => exact .inr (h.abandon (.inr ⟨reason, rfl⟩))

/-- A load either completes, having read all that the script delivers, or leaves nothing. -/
theorem HasRead.run (h : load.HasRead bytes) (c : Cancellation) (script : Script) :
    (load.run c script).IsLoadOf load.mode load.options (bytes ++ script.delivered) ∨
      (load.run c script).IsAbandoned load.options := by
  -- The bytes read so far carry the induction: every event either adds its own or ends the load.
  induction script generalizing load c bytes with
  | nil =>
    cases hc : c.requested with
    | true =>
      rw [run_of_requested load hc]
      exact .inr (h.abandon (.inl rfl))
    | false =>
      rw [run_nil load hc, Script.delivered, List.append_nil]
      exact .inl h.complete
  | cons event rest ih =>
    cases hc : c.requested with
    | true =>
      rw [run_of_requested load hc]
      exact .inr (h.abandon (.inl rfl))
    | false =>
      rcases event.isLast_or_not with ⟨a, cancelling, rfl, ha⟩ | hlast
      · rw [run_cons_of_isLast load hc ha, Script.delivered_of_isLast ha, List.append_nil]
        exact h.endWith a
      · have hnext := ih (h.takeEvent event) (c.notice event)
        rw [run_cons_of_not_isLast load hc hlast, Script.delivered_of_not_isLast hlast]
        rwa [takeEvent_mode, takeEvent_options, List.append_assoc] at hnext

theorem run_of_isCalm (load : Load) {c : Cancellation} (hc : c.requested = false)
    {script : Script} (hs : script.IsCalm) :
    ∃ summary, (load.run c script).result = .ok summary := by
  induction script generalizing load c with
  | nil =>
    rw [run_nil load hc]
    exact ⟨_, rfl⟩
  | cons event rest ih =>
    have hevent : event.isCalm = true := hs event List.mem_cons_self
    have hrest : Script.IsCalm rest := fun e he => hs e (List.mem_cons_of_mem _ he)
    rcases event.isLast_or_not with ⟨a, cancelling, rfl, ha⟩ | hlast
    · rw [run_cons_of_isLast load hc ha]
      cases a with
      | bytes chunk => exact ⟨_, rfl⟩
      | failed reason | interrupted reason => cases hevent
    · rw [run_cons_of_not_isLast load hc hlast]
      refine ih (load.takeEvent event) ?_ hrest
      rw [c.notice_requested, hc, ReadEvent.requests_of_isCalm hevent]
      exact Bool.and_false _

end Load

namespace Loader

theorem load_isLoadOf_or_isAbandoned (l : Loader) (script : Script) (total : Option Nat)
    (c : Cancellation) :
    (l.load script total c).IsLoadOf l.mode l.machine.options script.delivered ∨
      (l.load script total c).IsAbandoned l.machine.options := by
  have h := (Load.hasRead_start l.mode total l.machine).run c (script.cut l.readSize)
  rwa [Script.delivered_cut, List.nil_append] at h

theorem loadFile_isLoadOf_or_isAbandoned (l : Loader) (contents : List UInt8) (c : Cancellation) :
    (l.loadFile contents c).IsLoadOf l.mode l.machine.options contents ∨
      (l.loadFile contents c).IsAbandoned l.machine.options := by
  have h := (Load.hasRead_start l.mode (some contents.length) l.machine).run c
    ((Script.ofBytes contents).cut (min l.readSize fileReadLimit))
  rwa [Script.delivered_cut, Script.delivered_ofBytes, List.nil_append] at h

theorem load_isLoadOf_of_ok {l : Loader} {script : Script} {total : Option Nat} {c : Cancellation}
    {summary : LoadSummary} (h : (l.load script total c).result = .ok summary) :
    (l.load script total c).IsLoadOf l.mode l.machine.options script.delivered := by
  rcases l.load_isLoadOf_or_isAbandoned script total c with hdone | hleft
  · exact hdone
  · exact absurd h (hleft.result_ne summary)

theorem load_isLoadOf_of_isCalm (l : Loader) {script : Script} (hs : script.IsCalm)
    (total : Option Nat) {c : Cancellation} (hc : c.requested = false) :
    (l.load script total c).IsLoadOf l.mode l.machine.options script.delivered := by
  obtain ⟨summary, hsummary⟩ := (Load.start l.mode total l.machine).run_of_isCalm hc
    (hs.cut l.readSize)
  exact load_isLoadOf_of_ok hsummary

/-- A file is loaded to its end if nobody cancels. -/
theorem loadFile_isLoadOf (l : Loader) (contents : List UInt8) {c : Cancellation}
    (hc : c.requested = false) :
    (l.loadFile contents c).IsLoadOf l.mode l.machine.options contents := by
  have hcalm : (Script.ofBytes contents).IsCalm := by
    intro event hevent
    rw [List.mem_singleton.1 hevent]
    rfl
  obtain ⟨summary, hsummary⟩ := (Load.start l.mode (some contents.length) l.machine).run_of_isCalm
    hc (hcalm.cut (min l.readSize fileReadLimit))
  rcases l.loadFile_isLoadOf_or_isAbandoned contents c with hdone | hleft
  · exact hdone
  · exact absurd hsummary (hleft.result_ne summary)

/-- Without cancelling and failures a load completes, with what its mode, its options and the bytes
of the stream determine: all that their lines give one after the other from fresh options. -/
theorem load_determined_by_bytes (l : Loader) {script : Script} (hs : script.IsCalm)
    (total : Option Nat) {c : Cancellation} (hc : c.requested = false) :
    (l.load script total c).IsLoadOf l.mode l.machine.options script.delivered ∧
      ∀ (other : Loader) (script' : Script) (total' : Option Nat) (c' : Cancellation),
        other.mode = l.mode → other.machine.options = l.machine.options → script'.IsCalm →
        c'.requested = false → script'.delivered = script.delivered →
        (other.load script' total' c').Agrees (l.load script total c) := by
  have hload := l.load_isLoadOf_of_isCalm hs total hc
  refine ⟨hload, ?_⟩
  intro other script' total' c' hmode hoptions hs' hc' hbytes
  have hother := other.load_isLoadOf_of_isCalm hs' total' hc'
  rw [hmode, hoptions, hbytes] at hother
  exact hother.agrees hload rfl

/-- A line end and a character of two bytes are each cut in two, the handle is released on the way,
and the machine has moved before. The directive of the first line turns the move of the second one
upwards, which a rerun does not do. -/
theorem load_determined_by_bytes_cut :
    let used : Machine := ((Machine.ofOptions {}).process (.ofLine "G1 X7")).1
    let l : Loader := { machine := used, chunkSize := 4 }
    let bytes : List UInt8 := ";z_axis:e\r\nG1 E3 ;µ\n".toUTF8.data.toList
    let script : Script :=
      [.pending, .answer (.bytes (bytes.take 10)) false, .release,
        .answer (.bytes (bytes.extract 10 19)) false, .pending, .answer (.bytes (bytes.drop 19)) false]
    let upwards : Segment := ⟨.line, .origin, ⟨0.0, 0.0, 3.0⟩, 100.0, 2⟩
    (l.load script none {}).IsLoadOf .initial {} bytes ∧
      (l.load script none {}).segments = [upwards] ∧
      ({ l with mode := .rerun }.load script none {}).segments =
        [{ upwards with stop := .origin }] ∧
      (l.load script none {}).Agrees (l.load (.ofBytes bytes) (some 21) .never) := by
  intro used l bytes script upwards
  have hs : script.IsCalm := by decide
  have hwhole : (Script.ofBytes bytes).IsCalm := by decide
  have hbytes : script.delivered = bytes := by decide +kernel
  have h := load_determined_by_bytes l hwhole (some 21) (c := .never) rfl
  rw [Script.delivered_ofBytes] at h
  have hload := (load_determined_by_bytes l hs none (c := {}) rfl).1
  have hrerun := (load_determined_by_bytes { l with mode := .rerun } hs none (c := {}) rfl).1
  rw [hbytes] at hload hrerun
  refine ⟨hload, ?_, ?_, h.2 l script none {} rfl rfl hs rfl hbytes⟩
  · rw [hload.segments_eq]
    decide +kernel
  · rw [hrerun.segments_eq]
    decide +kernel

end Loader

end Toolpath
