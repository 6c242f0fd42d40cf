import Toolpath.Line
import Toolpath.Load.Script
import Toolpath.Machine.Directive
import Toolpath.Record.OfLine

/-!
# Loading a stream

A load resets the machine, reads a stream to its end and feeds every line to the machine in order.
Whenever a read completes lines, their segments are reported with the progress. A load that is
cancelled or fails puts the machine back to the options that it started with, so that nothing of
it is left. Cancelling is looked at before every read.
-/

namespace Toolpath

inductive LoadMode where
  /-- The first load of a file. -/
  | initial
  /-- A load with settings of the caller's choice. -/
  | rerun
deriving DecidableEq, Repr

structure Progress where
  bytes : Nat
  total : Option Nat
deriving DecidableEq, Repr

/-- The percentage read, at most 100, if the total is known. -/
def Progress.percent (p : Progress) : Option Float :=
  p.total.map fun total =>
    if total = 0 then 100.0
    else
      let percent := Float.ofNat p.bytes / Float.ofNat total * 100.0
      if percent < 100.0 then percent else 100.0

structure BatchReport where
  progress : Progress
  segments : List Segment
deriving DecidableEq

structure LoadSummary where
  lines : Nat := 0
  segments : Nat := 0
  bytes : Nat := 0
deriving DecidableEq, Repr

/-- What a load hands over to whoever receives its segments. -/
inductive Handover where
  | batch (report : BatchReport)
  | trace (positions : List Position)
deriving DecidableEq

namespace Handover

def report? : Handover → Option BatchReport
  | batch report => some report
  | trace _ => none

def trace? : Handover → Option (List Position)
  | batch _ => none
  | trace positions => some positions

end Handover

/-- What a load leaves: its result, everything that it handed over, in order, and the machine. -/
structure LoadOutcome where
  result : Except Error LoadSummary
  handovers : List Handover
  machine : Machine

namespace LoadOutcome

def reports (o : LoadOutcome) : List BatchReport := o.handovers.filterMap Handover.report?

def segments (o : LoadOutcome) : List Segment := o.reports.flatMap BatchReport.segments

def trace (o : LoadOutcome) : Option (List Position) := o.handovers.findSome? Handover.trace?

end LoadOutcome

/-- Whether a load was cancelled, and whether anybody holds the handle that cancels it. -/
structure Cancellation where
  requested : Bool := false
  held : Bool := true
deriving DecidableEq, Repr

namespace Cancellation

/-- Cancelling asks for a handle. It is never taken back. -/
def request (c : Cancellation) : Cancellation :=
  if c.held then { c with requested := true } else c

def release (c : Cancellation) : Cancellation := { c with held := false }

def never : Cancellation := { held := false }

end Cancellation

def Line.record (line : Line) : Record := .ofLine line.text

structure Load where
  mode : LoadMode
  total : Option Nat
  /-- The options with which the load started. -/
  options : Options
  machine : Machine
  cutter : Cutter := {}
  handovers : Array Handover := #[]
  lines : Nat := 0
  segments : Nat := 0

namespace Load

def start (mode : LoadMode) (total : Option Nat) (machine : Machine) : Load where
  mode := mode
  total := total
  options := machine.options
  machine := machine.reset

/-- Takes one record: its directives first, if they are followed at all. -/
def takeRecord (mode : LoadMode) (machine : Machine) (r : Record) : Machine × Option Segment :=
  match mode with
  | .initial => (machine.applyDirectives r).1.process r
  | .rerun => machine.process r

def takeLine (mode : LoadMode) (machine : Machine) (line : Line) : Machine × Option Segment :=
  takeRecord mode machine line.record

def takeBatch (load : Load) (batch : Batch) : Load :=
  let (machine, segments) := Transducer.run (takeLine load.mode) load.machine batch.lines
  { load with
    machine := machine
    handovers := load.handovers.push (.batch ⟨⟨batch.bytes, load.total⟩, segments⟩)
    lines := load.lines + batch.lines.length
    segments := load.segments + segments.length }

def takeBatch? (load : Load) (batch : Option Batch) : Load := (batch.map load.takeBatch).getD load

def takeChunk (load : Load) (chunk : List UInt8) : Load :=
  let (cutter, batch) := load.cutter.push chunk
  { load with cutter := cutter }.takeBatch? batch

def close (load : Load) (bytes : Nat) : LoadOutcome where
  result := .ok ⟨load.lines, load.segments, bytes⟩
  handovers := (load.handovers.push (.trace load.machine.trace.toList)).toList
  machine := load.machine

def takeEnd (load : Load) : Load :=
  let (cutter, batch) := load.cutter.finish
  { load with cutter := cutter }.takeBatch? batch

def complete (load : Load) : LoadOutcome := load.takeEnd.close load.takeEnd.cutter.bytes

def abandon (load : Load) (error : Error) : LoadOutcome where
  result := .error error
  handovers := load.handovers.toList
  machine := .ofOptions load.options

/-- Goes through a script. A request to cancel ends the load before the next read, or while that
read is pending. -/
def run (load : Load) (cancellation : Cancellation) : Script → LoadOutcome
  | [] => if cancellation.requested then load.abandon .cancelled else load.complete
  | event :: rest =>
    if cancellation.requested then load.abandon .cancelled
    else match event with
      | .pending => load.run cancellation rest
      | .cancel => load.run cancellation.request rest
      | .release => load.run cancellation.release rest
      | .answer (.bytes []) _ => load.complete
      | .answer (.bytes chunk) cancelling =>
        (load.takeChunk chunk).run (if cancelling then cancellation.request else cancellation) rest
      | .answer (.failed reason) _ | .answer (.interrupted reason) _ =>
        load.abandon (.io reason)

@[simp] theorem takeBatch_mode (load : Load) (batch : Batch) :
    (load.takeBatch batch).mode = load.mode := rfl

@[simp] theorem takeBatch_options (load : Load) (batch : Batch) :
    (load.takeBatch batch).options = load.options := rfl

@[simp] theorem takeBatch?_mode (load : Load) (batch : Option Batch) :
    (load.takeBatch? batch).mode = load.mode := by
  cases batch <;> rfl

@[simp] theorem takeBatch?_options (load : Load) (batch : Option Batch) :
    (load.takeBatch? batch).options = load.options := by
  cases batch <;> rfl

@[simp] theorem takeBatch?_cutter (load : Load) (batch : Option Batch) :
    (load.takeBatch? batch).cutter = load.cutter := by
  cases batch <;> rfl

@[simp] theorem takeChunk_mode (load : Load) (chunk : List UInt8) :
    (load.takeChunk chunk).mode = load.mode := by
  simp [takeChunk]

@[simp] theorem takeChunk_options (load : Load) (chunk : List UInt8) :
    (load.takeChunk chunk).options = load.options := by
  simp [takeChunk]

@[simp] theorem takeChunk_cutter (load : Load) (chunk : List UInt8) :
    (load.takeChunk chunk).cutter = (load.cutter.feed chunk).1 := by
  simp [takeChunk]

@[simp] theorem takeEnd_mode (load : Load) : load.takeEnd.mode = load.mode := by
  simp [takeEnd]

@[simp] theorem takeEnd_options (load : Load) : load.takeEnd.options = load.options := by
  simp [takeEnd]

@[simp] theorem takeEnd_cutter (load : Load) : load.takeEnd.cutter = load.cutter.finish.1 := by
  simp [takeEnd]

theorem run_of_requested (load : Load) {c : Cancellation} (h : c.requested = true)
    (script : Script) : load.run c script = load.abandon .cancelled := by
  cases script with
  | nil => exact if_pos h
  | cons event rest => exact if_pos h

section NotRequested

variable (load : Load) {c : Cancellation} (h : c.requested = false) (rest : Script)

include h

theorem run_nil : load.run c [] = load.complete := if_neg (Bool.eq_false_iff.1 h)

theorem run_pending : load.run c (.pending :: rest) = load.run c rest :=
  if_neg (Bool.eq_false_iff.1 h)

theorem run_cancel : load.run c (.cancel :: rest) = load.run c.request rest :=
  if_neg (Bool.eq_false_iff.1 h)

theorem run_release : load.run c (.release :: rest) = load.run c.release rest :=
  if_neg (Bool.eq_false_iff.1 h)

theorem run_end (cancelling : Bool) :
    load.run c (.answer (.bytes []) cancelling :: rest) = load.complete :=
  if_neg (Bool.eq_false_iff.1 h)

theorem run_bytes {chunk : List UInt8} (hchunk : chunk ≠ []) (cancelling : Bool) :
    load.run c (.answer (.bytes chunk) cancelling :: rest) =
      (load.takeChunk chunk).run (if cancelling then c.request else c) rest := by
  cases chunk with
  | nil => exact absurd rfl hchunk
  | cons b chunk => exact if_neg (Bool.eq_false_iff.1 h)

theorem run_failed (reason : String) (cancelling : Bool) :
    load.run c (.answer (.failed reason) cancelling :: rest) = load.abandon (.io reason) :=
  if_neg (Bool.eq_false_iff.1 h)

theorem run_interrupted (reason : String) (cancelling : Bool) :
    load.run c (.answer (.interrupted reason) cancelling :: rest) = load.abandon (.io reason) :=
  if_neg (Bool.eq_false_iff.1 h)

end NotRequested

end Load

/-- A machine that loads one stream at a time, with at most `chunkSize` bytes a read. -/
structure Loader where
  machine : Machine
  chunkSize : Nat := 65536
  mode : LoadMode := .initial

namespace Loader

def readSize (l : Loader) : Nat := max 1 l.chunkSize

def fileReadLimit : Nat := 2 * 1024 * 1024

/-- Loads a stream, whose total size may be known. -/
def load (l : Loader) (script : Script) (total : Option Nat) (cancellation : Cancellation) :
    LoadOutcome :=
  (Load.start l.mode total l.machine).run cancellation (script.cut l.readSize)

def loadFile (l : Loader) (contents : List UInt8) (cancellation : Cancellation) : LoadOutcome :=
  (Load.start l.mode (some contents.length) l.machine).run cancellation
    ((Script.ofBytes contents).cut (min l.readSize fileReadLimit))

/-- A file that cannot be opened for the given reason leaves the machine as it is. -/
def loadUnopened (l : Loader) (reason : String) : LoadOutcome where
  result := .error (.io reason)
  handovers := []
  machine := l.machine

end Loader

end Toolpath
