import Mathlib.Data.List.TakeWhile
import Toolpath.Proofs.DirectLoads
import Toolpath.Proofs.TextLines

/-!
# Items of a line reader

A line reader may be asked for items without end, whatever its reads are answered with. Every call
hands out the first of the items that are still to come, and these follow from the chunks that the
source hands out and from whether it fails: a batch for each chunk that completes a line, and at
last the line behind the last terminator or the failure. Interrupted reads leave no mark, and behind
the last item nothing is read any more.
-/

namespace Toolpath

namespace ReadEvent

/-- Whether nothing is read any more. An interrupted read is tried again. -/
def isEnd : ReadEvent → Bool
  | .answer (.bytes chunk) _ => chunk.isEmpty
  | .answer (.failed _) _ => true
  | _ => false

def read? : ReadEvent → Option (List UInt8)
  | .answer (.bytes chunk) _ => some chunk
  | _ => none

def failure? : ReadEvent → Option String
  | .answer (.failed reason) _ => some reason
  | _ => none

theorem isEnd_of_isInterrupted {event : ReadEvent} (h : event.isInterrupted = true) :
    event.isEnd = false ∧ event.read? = none := by
  cases event with
  | pending | cancel | release => exact ⟨rfl, rfl⟩
  | answer a cancelling =>
    cases a with
    | bytes chunk | failed reason => cases h
    | interrupted reason => exact ⟨rfl, rfl⟩

end ReadEvent

namespace Script

/-- The chunks that reads take before the end of the stream or the first failure. -/
def reads (script : Script) : List (List UInt8) :=
  (script.takeWhile fun event => !event.isEnd).filterMap ReadEvent.read?

/-- The reason of the failure that ends a script, if none of its reads ends the stream before. -/
def failure? (script : Script) : Option String :=
  (script.find? ReadEvent.isEnd).bind ReadEvent.failure?

section Cons

variable {event : ReadEvent}

theorem reads_cons_of_isEnd (h : event.isEnd = true) (rest : Script) :
    reads (event :: rest) = [] := by
  simp [reads, h]

theorem reads_cons (h : event.isEnd = false) (rest : Script) :
    reads (event :: rest) = event.read?.toList ++ reads rest := by
  rw [reads, List.takeWhile_cons_of_pos (by simp [h])]
  cases hread : event.read? with
  | none => rw [List.filterMap_cons_none hread]; rfl
  | some chunk => rw [List.filterMap_cons_some hread]; rfl

theorem failure?_cons_of_isEnd (h : event.isEnd = true) (rest : Script) :
    failure? (event :: rest) = event.failure? := by
  rw [failure?, List.find?_cons_of_pos h, Option.bind_some]

theorem failure?_cons (h : event.isEnd = false) (rest : Script) :
    failure? (event :: rest) = failure? rest := by
  rw [failure?, List.find?_cons_of_neg (by simp [h]), failure?]

end Cons

variable {first : Script} (h : ∀ event ∈ first, event.isEnd = false) (second : Script)

include h

theorem reads_append : reads (first ++ second) = reads first ++ reads second := by
  have hall : ∀ event ∈ first, (!event.isEnd) = true := fun event hevent => by simp [h event hevent]
  rw [reads, List.takeWhile_append_of_pos hall, List.filterMap_append, reads,
    List.takeWhile_eq_self_iff.2 hall, reads]

theorem failure?_append : failure? (first ++ second) = failure? second := by
  have hnone : first.find? ReadEvent.isEnd = none :=
    List.find?_eq_none.2 fun event hevent => by simp [h event hevent]
  rw [failure?, List.find?_append, hnone, Option.none_or, failure?]

end Script

namespace Script

theorem reads_uninterrupted (script : Script) :
    script.uninterrupted.reads = script.reads ∧
      script.uninterrupted.failure? = script.failure? := by
  induction script with
  | nil => exact ⟨rfl, rfl⟩
  | cons event rest ih =>
    cases h : event.isInterrupted with
    | true =>
      obtain ⟨hend, hread⟩ := ReadEvent.isEnd_of_isInterrupted h
      rw [uninterrupted_cons_of_isInterrupted h, reads_cons hend, hread, failure?_cons hend]
      exact ih
    | false =>
      rw [uninterrupted_cons h]
      cases hend : event.isEnd with
      | true =>
        simp only [reads_cons_of_isEnd hend, failure?_cons_of_isEnd hend, and_self]
      | false =>
        simp only [reads_cons hend, failure?_cons hend, ih, and_self]

theorem flatten_reads (script : Script) :
    script.reads.flatten = script.uninterrupted.delivered := by
  induction script with
  | nil => rfl
  | cons event rest ih =>
    cases event with
    | pending | cancel | release => exact ih
    | answer a cancelling =>
      cases a with
      | interrupted reason => exact ih
      | failed reason => rfl
      | bytes chunk =>
        cases chunk with
        | nil => rfl
        | cons b chunk =>
          rw [reads_cons rfl, uninterrupted_cons rfl,
            delivered_answer_bytes (List.cons_ne_nil b chunk), List.flatten_append, ih]
          simp [ReadEvent.read?]

theorem isEnd_of_mem_cutEvent (size : Nat) {event : ReadEvent} (h : event.isEnd = false) :
    ∀ part ∈ cutEvent size event, part.isEnd = false := by
  cases event with
  | pending | cancel | release => simpa [cutEvent] using h
  | answer a cancelling =>
    cases a with
    | failed reason | interrupted reason => simpa [cutEvent] using h
    | bytes chunk =>
      have hchunk : chunk ≠ [] := by
        rintro rfl
        cases h
      obtain ⟨first, rest, -, hfirst, hrest, hcut⟩ := exists_cutEvent_bytes size hchunk cancelling
      rw [hcut, List.forall_mem_cons, List.forall_mem_map]
      refine ⟨by simpa [ReadEvent.isEnd] using hfirst, ?_⟩
      intro part hpart
      simpa [ReadEvent.isEnd] using hrest part hpart

theorem failure?_cut (size : Nat) (script : Script) :
    (script.cut size).failure? = script.failure? := by
  induction script with
  | nil => rfl
  | cons event rest ih =>
    rw [cut_cons]
    cases hend : event.isEnd with
    | false => rw [failure?_append (isEnd_of_mem_cutEvent size hend), ih, failure?_cons hend]
    | true =>
      have hwhole : cutEvent size event = [event] := by
        cases event with
        | pending | cancel | release => rfl
        | answer a cancelling =>
          cases a with
          | failed reason | interrupted reason => rfl
          | bytes chunk =>
            rw [List.isEmpty_iff.1 hend]
            exact cutEvent_bytes_nil size cancelling
      rw [hwhole, List.singleton_append, failure?_cons_of_isEnd hend, failure?_cons_of_isEnd hend]

end Script

namespace LineReader

/-- The items that a cutter still has to hand out when a script is to come. -/
def itemsOf (cutter : Cutter) (script : Script) : List (Except Error Batch) :=
  let (last, batches) := Transducer.run Cutter.push cutter script.reads
  batches.map .ok ++ match script.failure? with
    | some reason => [.error (.io reason)]
    | none => last.finish.2.toList.map .ok

def items (r : LineReader) : List (Except Error Batch) :=
  if r.done then [] else itemsOf r.cutter r.script

/-- What one call does that finds the cutter and the script: it hands out the first item still to
come, if there is one, takes some events off the script and counts their bytes. Only behind a batch
there may be more to read. -/
structure Yields (cutter : Cutter) (script : Script) (r : LineReader)
    (item : Option (Except Error Batch)) : Prop where
  items : itemsOf cutter script = item.toList ++ r.items
  done : (∀ batch, item ≠ some (.ok batch)) → r.done = true
  used : ∃ used, script = used ++ r.script ∧
    r.cutter.bytes = cutter.bytes + used.reads.flatten.length ∧
    (r.done = false → ∀ event ∈ used, event.isEnd = false)

theorem itemsOf_uninterrupted (cutter : Cutter) (script : Script) :
    itemsOf cutter script.uninterrupted = itemsOf cutter script := by
  obtain ⟨hreads, hfailure⟩ := script.reads_uninterrupted
  rw [itemsOf, hreads, hfailure, itemsOf]

theorem run_push_bytes (cutter : Cutter) (chunks : List (List UInt8)) :
    (Transducer.run Cutter.push cutter chunks).1.bytes = cutter.bytes + chunks.flatten.length := by
  rw [(Cutter.run_push cutter chunks).1, Cutter.feed_bytes]

section Yields

variable {cutter last : Cutter} {event : ReadEvent} {script rest : Script} {r : LineReader}
  {item : Option (Except Error Batch)}

theorem itemsOf_of_reads_eq_nil (h : script.reads = []) :
    itemsOf cutter script = match script.failure? with
      | some reason => [.error (.io reason)]
      | none => cutter.finish.2.toList.map .ok := by
  rw [itemsOf, h]
  rfl

theorem itemsOf_cons (hend : event.isEnd = false) :
    itemsOf cutter (event :: rest) =
      (Transducer.run Cutter.push cutter event.read?.toList).2.map .ok ++
        itemsOf (Transducer.run Cutter.push cutter event.read?.toList).1 rest := by
  simp only [itemsOf, Script.reads_cons hend, Script.failure?_cons hend, Transducer.run_append,
    List.map_append, List.append_assoc]

/-- A read that is no end gives its chunk, if it has one, to the cutter. -/
theorem Yields.go_on (hend : event.isEnd = false)
    (hread : Transducer.run Cutter.push cutter event.read?.toList = (last, []))
    (h : Yields last rest r item) : Yields cutter (event :: rest) r item := by
  obtain ⟨used, hused, hbytes, hends⟩ := h.used
  have hlast := run_push_bytes cutter event.read?.toList
  rw [hread] at hlast
  refine ⟨?_, h.done, event :: used, by rw [hused]; rfl, ?_, ?_⟩
  · rw [itemsOf_cons hend, hread, ← h.items]
    rfl
  · rw [hbytes, hlast, Script.reads_cons hend, List.flatten_append, List.length_append]
    omega
  · exact fun hdone => List.forall_mem_cons.2 ⟨hend, hends hdone⟩

/-- A read whose chunk completes a batch ends the call. -/
theorem Yields.give (hend : event.isEnd = false) {batch : Batch}
    (hread : Transducer.run Cutter.push cutter event.read?.toList = (last, [batch])) :
    Yields cutter (event :: rest) ⟨rest, last, false⟩ (some (.ok batch)) := by
  have hlast := run_push_bytes cutter event.read?.toList
  rw [hread] at hlast
  refine ⟨?_, fun hno => absurd rfl (hno batch), [event], rfl, ?_, ?_⟩
  · rw [itemsOf_cons hend, hread]
    rfl
  · have hnone : Script.reads [] = [] := rfl
    rw [hlast, Script.reads_cons hend, hnone, List.append_nil]
  · exact fun _ => List.forall_mem_singleton.2 hend

/-- An end of the reading ends the call, and all later ones. -/
theorem Yields.stop (used : Script) (hreads : used.reads = []) (hlast : last.bytes = cutter.bytes)
    (hitems : itemsOf cutter (used ++ rest) = item.toList) :
    Yields cutter (used ++ rest) ⟨rest, last, true⟩ item := by
  refine ⟨?_, fun _ => rfl, used, rfl, ?_, fun hdone => nomatch hdone⟩
  · rw [hitems]
    exact (List.append_nil _).symm
  · rw [hreads]
    exact hlast

end Yields

theorem read_yields (cutter : Cutter) (script : Script) :
    Yields cutter script (read cutter script).1 (read cutter script).2 := by
  induction script generalizing cutter with
  | nil =>
    have hlast : cutter.finish.1.bytes = cutter.bytes := rfl
    apply Yields.stop [] rfl hlast
    rw [itemsOf_of_reads_eq_nil rfl]
    exact Option.toList_map.symm
  | cons event rest ih =>
    cases event with
    | pending | cancel | release => exact (ih cutter).go_on rfl rfl
    | answer a cancelling =>
      cases a with
      | interrupted reason => exact (ih cutter).go_on rfl rfl
      | failed reason =>
        apply Yields.stop [.answer (.failed reason) cancelling] rfl rfl
        rw [itemsOf_of_reads_eq_nil rfl]
        rfl
      | bytes chunk =>
        cases chunk with
        | nil =>
          have hlast : cutter.finish.1.bytes = cutter.bytes := rfl
          apply Yields.stop [.answer (.bytes []) cancelling] rfl hlast
          rw [itemsOf_of_reads_eq_nil rfl]
          exact Option.toList_map.symm
        | cons b chunk =>
          cases hpush : cutter.push (b :: chunk) with
          | mk last batch =>
            have hrun : Transducer.run Cutter.push cutter [b :: chunk] = (last, batch.toList) := by
              rw [Transducer.run_cons, hpush]
              simp
            cases batch with
            | none =>
              have hread : read cutter (.answer (.bytes (b :: chunk)) cancelling :: rest) =
                  read last rest := by
                simp only [read, hpush]
              rw [hread]
              exact (ih last).go_on rfl hrun
            | some batch =>
              have hread : read cutter (.answer (.bytes (b :: chunk)) cancelling :: rest) =
                  (⟨rest, last, false⟩, some (.ok batch)) := by
                simp only [read, hpush]
              rw [hread]
              exact Yields.give rfl hrun

theorem next_yields {r : LineReader} (h : r.done = false) :
    Yields r.cutter r.script r.next.1 r.next.2 := by
  rw [next, h, if_neg Bool.false_ne_true]
  exact read_yields r.cutter r.script

theorem next_of_done {r : LineReader} (h : r.done = true) : r.next = (r, none) := by
  rw [next, h, if_pos rfl]

theorem done_next (r : LineReader) (h : ∀ batch, r.next.2 ≠ some (.ok batch)) :
    r.next.1.done = true := by
  cases hdone : r.done with
  | true => rwa [next_of_done hdone]
  | false => exact (next_yields hdone).done h

/-- Every call hands out the first of the items still to come. -/
theorem items_next (r : LineReader) : r.next.2 = r.items.head? ∧ r.next.1.items = r.items.tail := by
  cases h : r.done with
  | true => simp [next_of_done h, items, h]
  | false =>
    have hitems : r.items = r.next.2.toList ++ r.next.1.items := by
      rw [← (next_yields h).items, items, h, if_neg Bool.false_ne_true]
    cases hitem : r.next.2 with
    | some item => simp [hitems, hitem]
    | none =>
      have hdone := r.done_next (by simp [hitem])
      have hnone : r.next.1.items = [] := by rw [items, hdone, if_pos rfl]
      rw [hitems, hitem, hnone]
      exact ⟨rfl, rfl⟩

/-- The reader after so many calls. -/
def after (r : LineReader) (calls : Nat) : LineReader := (fun r => r.next.1)^[calls] r

/-- What a call hands out when so many came before it. -/
def item (r : LineReader) (calls : Nat) : Option (Except Error Batch) := (r.after calls).next.2

theorem after_succ (r : LineReader) (calls : Nat) :
    r.after (calls + 1) = (r.after calls).next.1 :=
  Function.iterate_succ_apply' _ calls r

theorem after_of_done {r : LineReader} {calls : Nat} (h : (r.after calls).done = true)
    {later : Nat} (hlater : calls ≤ later) : r.after later = r.after calls := by
  induction later, hlater using Nat.le_induction with
  | base => rfl
  | succ later hlater ih => rw [after_succ, ih, next_of_done h]

theorem item_eq (r : LineReader) (calls : Nat) : r.item calls = r.items[calls]? := by
  induction calls generalizing r with
  | zero => exact (items_next r).1.trans List.head?_eq_getElem?
  | succ calls ih =>
    have hshift : r.item (calls + 1) = r.next.1.item calls := rfl
    rw [hshift, ih, (items_next r).2, List.getElem?_tail]

/-- What so many calls have taken off the script, and the bytes of it. -/
theorem exists_used (r : LineReader) (calls : Nat) :
    ∃ used, r.script = used ++ (r.after calls).script ∧
      (r.after calls).cutter.bytes = r.cutter.bytes + used.reads.flatten.length ∧
      ((r.after calls).done = false → ∀ event ∈ used, event.isEnd = false) := by
  induction calls with
  | zero => exact ⟨[], rfl, rfl, by simp⟩
  | succ calls ih =>
    obtain ⟨used, hused, hbytes, hends⟩ := ih
    rw [after_succ]
    cases h : (r.after calls).done with
    | true =>
      rw [next_of_done h]
      exact ⟨used, hused, hbytes, hends⟩
    | false =>
      obtain ⟨later, hlater, hbytes', hends'⟩ := (next_yields h).used
      refine ⟨used ++ later, by rw [List.append_assoc, ← hlater, hused], ?_, ?_⟩
      · rw [hbytes', hbytes, Script.reads_append (hends h), List.flatten_append, List.length_append]
        omega
      · exact fun hdone => List.forall_mem_append.2 ⟨hends h, hends' hdone⟩

/-- The items of a line reader are settled by the chunks that its source hands out: a batch for
each chunk that completes a line, and behind them the line that no terminator ends, if it is not
blank, or the failure, in which case that line is lost. It does not matter between which reads
others are interrupted. Behind the last item and behind a failure every call finds nothing and
leaves the reader and its source as they are. At all times the bytes of the chunks taken so far are
counted, and a stream that comes to its end is handed out in lines as a whole. -/
theorem items_of_reads (script : Script) (chunkSize : Nat) :
    let source := script.cut (max 1 chunkSize)
    let r := ofScript script chunkSize
    let pushed := Transducer.run Cutter.push {} source.reads
    let batches := pushed.2 ++ pushed.1.finish.2.toList
    (script.failure? = none →
      (∀ calls, r.item calls = (batches.map Except.ok)[calls]?) ∧
      batches.flatMap Batch.lines = Line.ofBytes script.uninterrupted.delivered) ∧
    (∀ reason, script.failure? = some reason → ∀ calls,
      r.item calls = (pushed.2.map Except.ok ++ [.error (.io reason)])[calls]?) ∧
    (∀ other : Script, (other.cut (max 1 chunkSize)).uninterrupted = source.uninterrupted →
      ∀ calls, (ofScript other chunkSize).item calls = r.item calls) ∧
    (∀ calls, (∀ batch, r.item calls ≠ some (.ok batch)) → ∀ later, calls < later →
      r.item later = none ∧ r.after later = r.after (calls + 1)) ∧
    ∀ calls, ∃ used, source = used ++ (r.after calls).script ∧
      (r.after calls).cutter.bytes = used.reads.flatten.length := by
  intro source r pushed batches
  have hitems : ∀ other : Script, (ofScript other chunkSize).items =
      itemsOf {} (other.cut (max 1 chunkSize)) := fun _ => rfl
  have hfailure : source.failure? = script.failure? := script.failure?_cut (max 1 chunkSize)
  refine ⟨fun hnone => ⟨fun calls => ?_, ?_⟩, fun reason hreason calls => ?_,
    fun other hother calls => ?_, fun calls hno later hlater => ?_, fun calls => ?_⟩
  · rw [item_eq, hitems, itemsOf, hfailure, hnone, List.map_append]
  · have hlines := Batch.ofChunks_lines source.reads
    rw [Script.flatten_reads, Script.uninterrupted_cut, Script.delivered_cut] at hlines
    exact hlines
  · rw [item_eq, hitems, itemsOf, hfailure, hreason]
  · rw [item_eq, item_eq, hitems, hitems, ← itemsOf_uninterrupted, hother, itemsOf_uninterrupted]
  · have hdone : (r.after (calls + 1)).done = true := by
      rw [after_succ]
      exact (r.after calls).done_next hno
    have hafter := after_of_done hdone hlater
    exact ⟨by rw [item, hafter, next_of_done hdone], hafter⟩
  · obtain ⟨used, hused, hbytes, -⟩ := r.exists_used calls
    refine ⟨used, hused, ?_⟩
    rw [hbytes]
    exact Nat.zero_add _

/-- Bytes are read one at a time, and the failure comes in the middle of the second line. -/
theorem items_of_reads_failing :
    let script : Script := [.answer (.interrupted "signal") false,
      .answer (.bytes "G1 X1\nM1".toUTF8.data.toList) false, .answer (.failed "unplugged") false]
    script.failure? = some "unplugged" ∧
      (List.range 4).map (ofScript script 0).item =
        [some (.ok ⟨6, [⟨"G1 X1", 6⟩]⟩), some (.error (.io "unplugged")), none, none] := by
  intro script
  have hfailure : script.failure? = some "unplugged" := by decide +kernel
  obtain ⟨-, hitems, -⟩ := items_of_reads script 0
  refine ⟨hfailure, ?_⟩
  rw [List.map_congr_left fun calls _ => hitems _ hfailure calls]
  decide +kernel

end LineReader

end Toolpath
