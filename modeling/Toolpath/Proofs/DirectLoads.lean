import Toolpath.Load.Direct
import Toolpath.Proofs.Answers
import Toolpath.Proofs.Completion

/-!
# Loads without a handle

A load that pulls its batches from a line reader gives what a rerun gives that nobody cancels, as if
interrupted reads had not been made. If both get the same answers, they differ only in the total
size that a rerun may report. If both complete with the same bytes, they differ at most in how the
lines were batched.
-/

namespace Toolpath

def ReadEvent.isInterrupted : ReadEvent → Bool
  | .answer (.interrupted _) _ => true
  | _ => false

namespace Script

def uninterrupted (script : Script) : Script := script.filter fun event => !event.isInterrupted

theorem uninterrupted_cons_of_isInterrupted {event : ReadEvent} (h : event.isInterrupted = true)
    (rest : Script) : uninterrupted (event :: rest) = uninterrupted rest :=
  List.filter_cons_of_neg (by simp [h])

theorem uninterrupted_cons {event : ReadEvent} (h : event.isInterrupted = false)
    (rest : Script) : uninterrupted (event :: rest) = event :: uninterrupted rest :=
  List.filter_cons_of_pos (by simp [h])

theorem uninterrupted_cutEvent (size : Nat) {event : ReadEvent} (h : event.isInterrupted = false) :
    uninterrupted (cutEvent size event) = cutEvent size event := by
  apply List.filter_eq_self.2
  intro part hpart
  rcases eq_or_bytes_of_mem_cutEvent hpart with rfl | ⟨chunk, cancelling, bytes, -, rfl | rfl⟩
  · rw [h]
    rfl
  · rfl
  · rfl

theorem uninterrupted_cut (size : Nat) (script : Script) :
    (script.cut size).uninterrupted = script.uninterrupted.cut size := by
  induction script with
  | nil => rfl
  | cons event rest ih =>
    rw [cut_cons, uninterrupted, List.filter_append]
    change uninterrupted (cutEvent size event) ++ (cut size rest).uninterrupted = _
    rw [ih]
    cases h : event.isInterrupted with
    | true =>
      rw [uninterrupted_cons_of_isInterrupted h]
      cases event with
      | pending | cancel | release => cases h
      | answer a cancelling =>
        cases a with
        | bytes chunk | failed reason => cases h
        | interrupted reason => rfl
    | false => rw [uninterrupted_cons h, uninterrupted_cutEvent size h, cut_cons]

theorem delivered_withoutRequests (script : Script) :
    script.withoutRequests.delivered = script.delivered := by
  rw [delivered_eq_flatMap, answers_withoutRequests, ← delivered_eq_flatMap]

end Script

namespace DirectLoad

section TakeAll

variable (load : DirectLoad) {reader rest : LineReader}

theorem takeAll_of_end (h : reader.next = (rest, none)) :
    load.takeAll reader = load.close rest.cutter.bytes := by
  rw [takeAll]
  split <;> simp_all

theorem takeAll_of_batch {batch : Batch} (h : reader.next = (rest, some (.ok batch))) :
    load.takeAll reader = (load.takeBatch batch).takeAll rest := by
  rw [takeAll]
  split <;> simp_all

theorem takeAll_of_error {error : Error} (h : reader.next = (rest, some (.error error))) :
    load.takeAll reader = load.abandon error := by
  rw [takeAll]
  split <;> simp_all

theorem takeAll_congr {other : LineReader} (h : reader.next = other.next) :
    load.takeAll reader = load.takeAll other := by
  cases hother : other.next with
  | mk rest item =>
    rw [hother] at h
    cases item with
    | none => rw [load.takeAll_of_end h, load.takeAll_of_end hother]
    | some item =>
      cases item with
      | error error => rw [load.takeAll_of_error h, load.takeAll_of_error hother]
      | ok batch => rw [load.takeAll_of_batch h, load.takeAll_of_batch hother]

theorem takeAll_of_done {cutter : Cutter} {script : Script} :
    load.takeAll ⟨script, cutter, true⟩ = load.close cutter.bytes := by
  have hnext : (LineReader.mk script cutter true).next = (⟨script, cutter, true⟩, none) := rfl
  exact load.takeAll_of_end hnext

/-- The batch that a read completes, if it completes one. -/
def takeBatch? (load : DirectLoad) (batch : Option Batch) : DirectLoad :=
  (batch.map load.takeBatch).getD load

theorem takeAll_of_finish {cutter : Cutter} {batch : Option Batch} {script : Script}
    (h : reader.next = (⟨script, cutter, true⟩, batch.map .ok)) :
    load.takeAll reader = (load.takeBatch? batch).close cutter.bytes := by
  cases batch with
  | none => exact load.takeAll_of_end h
  | some batch =>
    rw [load.takeAll_of_batch h, takeAll_of_done]
    rfl

theorem takeAll_of_push {cutter : Cutter} {chunk : List UInt8} (hchunk : chunk ≠ [])
    (cancelling : Bool) (script : Script) :
    load.takeAll ⟨.answer (.bytes chunk) cancelling :: script, cutter, false⟩ =
      (load.takeBatch? (cutter.push chunk).2).takeAll ⟨script, (cutter.push chunk).1, false⟩ := by
  cases chunk with
  | nil => exact absurd rfl hchunk
  | cons b chunk =>
    cases hpush : cutter.push (b :: chunk) with
    | mk cutter' batch =>
      cases batch with
      | none =>
        apply load.takeAll_congr
        simp [LineReader.next, LineReader.read, hpush]
      | some batch =>
        apply load.takeAll_of_batch
        simp [LineReader.next, LineReader.read, hpush]

end TakeAll

end DirectLoad

namespace Load

/-- The cutter of a load does not matter to a batch, so it may as well be kept beside the load. -/
theorem takeChunk_withCutter (load : Load) (cutter : Cutter) (chunk : List UInt8) :
    { load with cutter := cutter }.takeChunk chunk =
      { load.takeBatch? (cutter.push chunk).2 with cutter := (cutter.push chunk).1 } := by
  cases hpush : cutter.push chunk with
  | mk cutter' batch =>
    simp only [takeChunk, hpush]
    cases batch <;> rfl

theorem run_rerun (m : Machine) (records : List Record) :
    Transducer.run (takeRecord .rerun) m records = m.processAll records := rfl

/-- What a load without a handle keeps of a load. -/
def direct (load : Load) : DirectLoad where
  machine := load.machine
  handovers := load.handovers
  lines := load.lines
  segments := load.segments

/-- A load that a direct load stands for: it follows no directives, knows no total and has its
options in force. -/
structure IsDirect (load : Load) : Prop where
  mode : load.mode = .rerun
  total : load.total = none
  options : load.machine.options = load.options

/-- A batch of a rerun is a batch of a direct load. -/
theorem direct_takeBatch {load : Load} (h : load.IsDirect) (batch : Batch) :
    (load.takeBatch batch).direct = load.direct.takeBatch batch := by
  have hrun : Transducer.run (takeLine load.mode) load.machine batch.lines =
      load.machine.processAll (batch.lines.map Line.record) := by
    rw [h.mode, ← run_rerun, Transducer.run_map]
    rfl
  simp only [Load.takeBatch, direct, DirectLoad.takeBatch, hrun, h.total, List.length_map]

theorem IsDirect.withCutter {load : Load} (h : load.IsDirect) (cutter : Cutter) :
    { load with cutter := cutter }.IsDirect :=
  ⟨h.mode, h.total, h.options⟩

theorem IsDirect.takeBatch? {load : Load} (h : load.IsDirect) (batch : Option Batch) :
    (load.takeBatch? batch).IsDirect ∧
      (load.takeBatch? batch).direct = load.direct.takeBatch? batch := by
  cases batch with
  | none => exact ⟨h, rfl⟩
  | some batch =>
    have hdirect := direct_takeBatch h batch
    have hmachine : (load.takeBatch batch).machine =
        (load.machine.processAll (batch.lines.map Line.record)).1 :=
      congrArg DirectLoad.machine hdirect
    refine ⟨⟨h.mode, h.total, ?_⟩, hdirect⟩
    change (load.takeBatch batch).machine.options = load.options
    rw [hmachine, Machine.processAll_options, h.options]

theorem IsDirect.complete {load : Load} (h : load.IsDirect) :
    load.complete =
      (load.direct.takeBatch? load.cutter.finish.2).close load.cutter.finish.1.bytes := by
  have hend : load.takeEnd.direct = load.direct.takeBatch? load.cutter.finish.2 :=
    ((h.withCutter load.cutter.finish.1).takeBatch? load.cutter.finish.2).2
  rw [← hend, Load.complete, takeEnd_cutter]
  rfl

theorem IsDirect.abandon {load : Load} (h : load.IsDirect) (error : Error) :
    load.abandon error = load.direct.abandon error := by
  rw [Load.abandon, ← h.options]
  rfl

/-- A line reader under way hands over what a load with its cutter makes of the answers. -/
theorem takeAll_eq_follow {load : Load} (h : load.IsDirect) (cutter : Cutter) (script : Script) :
    load.direct.takeAll ⟨script, cutter, false⟩ =
      { load with cutter := cutter }.follow script.uninterrupted.answers := by
  induction script generalizing load cutter with
  | nil =>
    have hend : (LineReader.mk [] cutter false).next =
        (⟨[], cutter.finish.1, true⟩, cutter.finish.2.map .ok) := rfl
    rw [load.direct.takeAll_of_finish hend]
    exact (h.withCutter cutter).complete.symm
  | cons event rest ih =>
    have hskip (hnext : (LineReader.mk (event :: rest) cutter false).next =
        (LineReader.mk rest cutter false).next) :
        load.direct.takeAll ⟨event :: rest, cutter, false⟩ =
          { load with cutter := cutter }.follow (Script.uninterrupted rest).answers :=
      (load.direct.takeAll_congr hnext).trans (ih h cutter)
    cases event with
    | pending | cancel | release => exact hskip rfl
    | answer a cancelling =>
      cases a with
      | interrupted reason => exact hskip rfl
      | failed reason =>
        have herror : (LineReader.mk (.answer (.failed reason) cancelling :: rest) cutter
            false).next = (⟨rest, cutter, true⟩, some (.error (.io reason))) := rfl
        rw [load.direct.takeAll_of_error herror]
        exact ((h.withCutter cutter).abandon (.io reason)).symm
      | bytes chunk =>
        by_cases hchunk : chunk = []
        · subst hchunk
          have hend : (LineReader.mk (.answer (.bytes []) cancelling :: rest) cutter false).next =
              (⟨rest, cutter.finish.1, true⟩, cutter.finish.2.map .ok) := rfl
          rw [load.direct.takeAll_of_finish hend]
          exact (h.withCutter cutter).complete.symm
        · have hlast : ReadEvent.isLast (.answer (.bytes chunk) cancelling) = false := by
            simpa [ReadEvent.isLast, Answer.isLast] using hchunk
          obtain ⟨hnext, hbatch⟩ := h.takeBatch? (cutter.push chunk).2
          rw [Script.uninterrupted_cons rfl, follow_answers_of_not_isLast _ hlast, takeEvent,
            takeAnswer, takeChunk_withCutter, load.direct.takeAll_of_push hchunk, ← hbatch]
          exact ih hnext (cutter.push chunk).1

end Load

/-- A report without the total size of the stream. -/
def Handover.withoutTotal : Handover → Handover
  | .batch report => .batch ⟨{ report.progress with total := none }, report.segments⟩
  | .trace positions => .trace positions

def LoadOutcome.withoutTotal (outcome : LoadOutcome) : LoadOutcome :=
  { outcome with handovers := outcome.handovers.map Handover.withoutTotal }

namespace Load

def withoutTotal (load : Load) : Load :=
  { load with total := none, handovers := load.handovers.map Handover.withoutTotal }

theorem withoutTotal_start (mode : LoadMode) (total : Option Nat) (m : Machine) :
    (start mode total m).withoutTotal = start mode none m := by
  simp [withoutTotal, start]

theorem withoutTotal_takeBatch? (load : Load) (batch : Option Batch) :
    (load.takeBatch? batch).withoutTotal = load.withoutTotal.takeBatch? batch := by
  cases batch with
  | none => rfl
  | some batch =>
    simp [takeBatch?, takeBatch, withoutTotal, Array.map_push, Handover.withoutTotal]

theorem withoutTotal_takeAnswer (load : Load) (a : Answer) :
    (load.takeAnswer a).withoutTotal = load.withoutTotal.takeAnswer a := by
  cases a with
  | failed reason | interrupted reason => rfl
  | bytes chunk => exact withoutTotal_takeBatch? { load with cutter := (load.cutter.push chunk).1 } _

theorem withoutTotal_complete (load : Load) :
    load.complete.withoutTotal = load.withoutTotal.complete := by
  have hend : load.takeEnd.withoutTotal = load.withoutTotal.takeEnd :=
    withoutTotal_takeBatch? { load with cutter := load.cutter.finish.1 } _
  unfold complete
  rw [← hend]
  simp [LoadOutcome.withoutTotal, close, withoutTotal, Handover.withoutTotal]

theorem withoutTotal_endWith (load : Load) (a : Answer) :
    (load.endWith a).withoutTotal = load.withoutTotal.endWith a := by
  cases a with
  | bytes chunk => exact load.withoutTotal_complete
  | failed reason | interrupted reason =>
    simp [endWith, abandon, LoadOutcome.withoutTotal, withoutTotal]

theorem withoutTotal_follow (load : Load) (answers : List Answer) :
    (load.follow answers).withoutTotal = load.withoutTotal.follow answers := by
  induction answers generalizing load with
  | nil => exact load.withoutTotal_complete
  | cons a rest ih =>
    rw [follow, follow]
    by_cases hlast : a.isLast = true
    · rw [if_pos hlast, if_pos hlast, withoutTotal_endWith]
    · rw [if_neg hlast, if_neg hlast, ih, withoutTotal_takeAnswer]

end Load

theorem directLoad_eq_follow (m : Machine) (script : Script) :
    directLoad m script =
      (Load.start .rerun none m).follow (script.cut 65536).uninterrupted.answers := by
  have hstart : (Load.start .rerun none m).IsDirect := ⟨rfl, rfl, rfl⟩
  exact Load.takeAll_eq_follow hstart {} (script.cut 65536)

/-- A direct load is the rerun of its script without the interrupted reads and with no handle. -/
theorem directLoad_eq_load (m : Machine) (script : Script) :
    directLoad m script = { machine := m, mode := .rerun : Loader }.load
      script.uninterrupted.withoutRequests none .never := by
  rw [directLoad_eq_follow, Loader.load, ← Script.withoutRequests_cut,
    Load.run_of_not_requests _ rfl (Script.requests_withoutRequests _),
    Script.answers_withoutRequests, Script.uninterrupted_cut]
  rfl

theorem directLoad_isLoadOf_of_ok {m : Machine} {script : Script} {summary : LoadSummary}
    (h : (directLoad m script).result = .ok summary) :
    (directLoad m script).IsLoadOf .rerun m.options script.uninterrupted.delivered := by
  rw [directLoad_eq_load] at h ⊢
  have hload := Loader.load_isLoadOf_of_ok h
  rwa [Script.delivered_withoutRequests] at hload

/-- Where a direct load gets the answers of a rerun that nobody cancels, apart from interrupted
reads, it gives the same, but for the total size. Where both complete with the same bytes, they
agree however these were cut. -/
theorem directLoad_agrees_with_rerun (l : Loader) (hmode : l.mode = .rerun)
    (hsize : l.chunkSize = 65536) (script direct : Script) (total : Option Nat)
    {c : Cancellation} (hc : c.requested = false) (hscript : script.requests = false) :
    ((direct.cut 65536).uninterrupted.answers = (script.cut 65536).answers →
      (l.load script total c).withoutTotal = directLoad l.machine direct) ∧
    (∀ summary summary', direct.uninterrupted.delivered = script.delivered →
      (directLoad l.machine direct).result = .ok summary →
      (l.load script total c).result = .ok summary' →
      (directLoad l.machine direct).Agrees (l.load script total c)) := by
  constructor
  · intro hanswers
    have hreads : l.readSize = 65536 := by
      rw [Loader.readSize, hsize]
      rfl
    have hquiet : (script.cut 65536).requests = false := by rw [Script.requests_cut, hscript]
    rw [Loader.load, hreads, Load.run_of_not_requests _ hc hquiet, Load.withoutTotal_follow,
      Load.withoutTotal_start, directLoad_eq_follow, hanswers, hmode]
  · intro summary summary' hbytes hdirect hload
    have hdone := directLoad_isLoadOf_of_ok hdirect
    have hrerun := Loader.load_isLoadOf_of_ok hload
    rw [hbytes] at hdone
    rw [hmode] at hrerun
    exact hdone.agrees hrerun rfl

/-- The direct load is interrupted twice, the rerun is released, and both fail behind an unfinished
line. With the end of the stream in place of the failure, two reads and one give the same. -/
theorem directLoad_agrees_with_rerun_interrupted :
    let used : Machine := ((Machine.ofOptions {}).process (.ofLine ";layer_height:2")).1
    let l : Loader := { machine := used, mode := .rerun }
    let first : ReadEvent := .answer (.bytes "G1 X1\nG2 X3".toUTF8.data.toList) false
    let second : ReadEvent := .answer (.bytes " I1\nG1 Y".toUTF8.data.toList) false
    let interrupted : ReadEvent := .answer (.interrupted "signal") false
    let failed : ReadEvent := .answer (.failed "unplugged") false
    let bytes : List UInt8 := "G1 X1\nG2 X3 I1\nG1 Y".toUTF8.data.toList
    (l.load [first, .release, second, .pending, failed] (some 40) {}).withoutTotal =
        directLoad used [interrupted, first, second, interrupted, failed] ∧
      (directLoad used (.ofBytes bytes)).Agrees (l.load [first, second] (some 19) {}) := by
  intro used l first second interrupted failed bytes
  have hfailing := directLoad_agrees_with_rerun l rfl rfl
    [first, .release, second, .pending, failed] [interrupted, first, second, interrupted, failed]
    (some 40) (c := {}) rfl rfl
  have hending := directLoad_agrees_with_rerun l rfl rfl [first, second] (.ofBytes bytes) (some 19)
    (c := {}) rfl rfl
  have hcalm : Script.IsCalm [first, second] := by decide
  have hload := (l.load_isLoadOf_of_isCalm hcalm (some 19) (c := {}) rfl).result
  have hquiet : (Script.ofBytes bytes).uninterrupted.withoutRequests.IsCalm := by decide +kernel
  have hdirect := (({ machine := used, mode := .rerun } : Loader).load_isLoadOf_of_isCalm hquiet none
    (c := .never) rfl).result
  rw [← directLoad_eq_load] at hdirect
  refine ⟨hfailing.1 (by decide +kernel), ?_⟩
  exact hending.2 _ _ (by decide +kernel) hdirect hload

end Toolpath
