import Toolpath.Load

/-!
# Loading without a handle

A line reader pulls batches of lines from a source that blocks until it has an answer. Interrupted
reads are tried again. Once the source is at its end or has failed, there are no more items, and
the source is not read again. `directLoad` loads a stream this way, with the settings of the machine
and without following directives.
-/

namespace Toolpath

structure LineReader where
  script : Script
  cutter : Cutter := {}
  done : Bool := false

namespace LineReader

/-- A reader that takes at most `chunkSize` bytes at a time, and at least one. -/
def ofScript (script : Script) (chunkSize : Nat) : LineReader :=
  { script := script.cut (max 1 chunkSize) }

/-- Reads until a batch is complete, the source fails or it ends. -/
def read (cutter : Cutter) : Script → LineReader × Option (Except Error Batch)
  | [] =>
    let (cutter, batch) := cutter.finish
    (⟨[], cutter, true⟩, batch.map .ok)
  | event :: rest => match event with
    | .pending | .cancel | .release | .answer (.interrupted _) _ => read cutter rest
    | .answer (.failed reason) _ => (⟨rest, cutter, true⟩, some (.error (.io reason)))
    | .answer (.bytes []) _ =>
      let (cutter, batch) := cutter.finish
      (⟨rest, cutter, true⟩, batch.map .ok)
    | .answer (.bytes chunk) _ => match cutter.push chunk with
      | (cutter, some batch) => (⟨rest, cutter, false⟩, some (.ok batch))
      | (cutter, none) => read cutter rest

def next (r : LineReader) : LineReader × Option (Except Error Batch) :=
  if r.done then (r, none) else read r.cutter r.script

def remaining (r : LineReader) : Nat := if r.done then 0 else r.script.length + 1

theorem remaining_le_of_read (cutter : Cutter) (script : Script) :
    (read cutter script).1.remaining ≤ script.length := by
  induction script generalizing cutter with
  | nil => simp [read, remaining]
  | cons event rest ih =>
    have later (c : Cutter) : (read c rest).1.remaining ≤ (event :: rest).length :=
      Nat.le_succ_of_le (ih c)
    unfold read
    split
    · exact later _
    · exact later _
    · exact later _
    · exact later _
    · simp [remaining]
    · simp [remaining]
    · split
      · simp [remaining]
      · exact later _

theorem remaining_next_lt (r : LineReader) (h : r.next.2.isSome) :
    r.next.1.remaining < r.remaining := by
  unfold next at h ⊢
  split at h
  · simp at h
  · rename_i hd
    rw [if_neg hd, remaining.eq_def r, if_neg hd]
    exact Nat.lt_succ_of_le (remaining_le_of_read r.cutter r.script)

end LineReader

/-- A load without a handle, under way. It has no mode and knows no total. -/
structure DirectLoad where
  machine : Machine
  handovers : Array Handover := #[]
  lines : Nat := 0
  segments : Nat := 0

namespace DirectLoad

def start (machine : Machine) : DirectLoad := { machine := machine.reset }

/-- Takes the records of a batch as they are. -/
def takeBatch (load : DirectLoad) (batch : Batch) : DirectLoad :=
  let records := batch.lines.map Line.record
  let (machine, segments) := load.machine.processAll records
  { machine := machine
    handovers := load.handovers.push (.batch ⟨⟨batch.bytes, none⟩, segments⟩)
    lines := load.lines + records.length
    segments := load.segments + segments.length }

def close (load : DirectLoad) (bytes : Nat) : LoadOutcome where
  result := .ok ⟨load.lines, load.segments, bytes⟩
  handovers := (load.handovers.push (.trace load.machine.trace.toList)).toList
  machine := load.machine

def abandon (load : DirectLoad) (error : Error) : LoadOutcome where
  result := .error error
  handovers := load.handovers.toList
  machine := load.machine.reset

/-- Takes the items of a reader to their end. -/
def takeAll (load : DirectLoad) (reader : LineReader) : LoadOutcome :=
  match _h : reader.next with
  | (rest, none) => load.close rest.cutter.bytes
  | (_, some (.error error)) => load.abandon error
  | (rest, some (.ok batch)) => (load.takeBatch batch).takeAll rest
termination_by reader.remaining
decreasing_by
  have hlt := reader.remaining_next_lt (by rw [_h]; rfl)
  rwa [_h] at hlt

end DirectLoad

/-- Loads a stream of unknown size with the settings of the machine. -/
def directLoad (machine : Machine) (script : Script) : LoadOutcome :=
  (DirectLoad.start machine).takeAll (.ofScript script 65536)

end Toolpath
