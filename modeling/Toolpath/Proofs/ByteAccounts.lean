import Mathlib.Data.List.DropRight
import Toolpath.Proofs.TextLines

/-!
# Byte accounts of a cutter

A cutter may be used for stream after stream, each of which it is told the end of. Its count of
bytes goes on over all of them. Every line that a chunk completes is counted at the byte that ends
it, so that no byte is lost, counted twice or given to another line, however the streams are cut.
Behind the end of a stream the cutter does what a fresh one does, with its counts so much higher.
-/

namespace Toolpath

/-- What a cutter may be given: a chunk of a stream, or its end. -/
inductive Cutter.Call where
  | push (chunk : List UInt8)
  | finish
deriving DecidableEq

namespace Cutter

def Call.bytes : Call → List UInt8
  | push chunk => chunk
  | finish => []

/-- All bytes that calls bring, over the ends of streams. -/
def Call.stream (calls : List Call) : List UInt8 := calls.flatMap bytes

def answer (c : Cutter) : Call → Cutter × Option Batch
  | .push chunk => c.push chunk
  | .finish => c.finish

def answerAll (c : Cutter) (calls : List Call) : Cutter × List Batch :=
  Transducer.run answer c calls

def isInner (b : UInt8) : Bool := b != lineFeed && b != carriageReturn

/-- Whether a line ends with the byte at `i`: a carriage return, or a line feed that does not come
right behind one. -/
def endsLineAt (stream : List UInt8) (i : Nat) : Bool :=
  stream[i]? == some carriageReturn ||
    stream[i]? == some lineFeed && (stream.take i).getLast? != some carriageReturn

/-- The line that ends with the byte at `i`: the bytes before it, back to the line end before them,
in a stream with `offset` bytes before it. -/
def lineAt (offset : Nat) (stream : List UInt8) (i : Nat) : Line where
  text := String.ofList (Text.decodeLossy ((stream.take i).rtakeWhile isInner))
  bytes := offset + i + 1

/-- The lines that end in a stream with `offset` bytes before it, one for every line end. -/
def endedLines (offset : Nat) (stream : List UInt8) : List Line :=
  ((List.range stream.length).filter (endsLineAt stream)).map (lineAt offset stream)

/-- Where a fresh cutter stands behind a chunk, with `offset` bytes before it. -/
def behind (offset : Nat) (stream : List UInt8) : Cutter where
  tail := (stream.rtakeWhile isInner).toArray
  bytes := offset + stream.length
  afterReturn := stream.getLast? == some carriageReturn

theorem endsLineAt_concat_length (stream : List UInt8) (b : UInt8) :
    endsLineAt (stream ++ [b]) stream.length =
      (b == carriageReturn || b == lineFeed && stream.getLast? != some carriageReturn) := by
  simp [endsLineAt]

theorem lineAt_concat (offset : Nat) (stream : List UInt8) (b : UInt8) {i : Nat}
    (h : i ≤ stream.length) : lineAt offset (stream ++ [b]) i = lineAt offset stream i := by
  rw [lineAt, lineAt, List.take_append_of_le_length h]

theorem endsLineAt_concat (stream : List UInt8) (b : UInt8) {i : Nat} (h : i < stream.length) :
    endsLineAt (stream ++ [b]) i = endsLineAt stream i := by
  rw [endsLineAt, endsLineAt, List.take_append_of_le_length h.le, List.getElem?_append_left h]

/-- One more byte ends at most one more line. -/
theorem endedLines_concat (offset : Nat) (stream : List UInt8) (b : UInt8) :
    endedLines offset (stream ++ [b]) = endedLines offset stream ++
      if b == carriageReturn || b == lineFeed && stream.getLast? != some carriageReturn then
        [⟨String.ofList (behind offset stream).tailText, offset + stream.length + 1⟩]
      else [] := by
  have hold : ((List.range stream.length).filter (endsLineAt (stream ++ [b]))).map
      (lineAt offset (stream ++ [b])) = endedLines offset stream := by
    rw [List.filter_congr fun i hi => endsLineAt_concat stream b (List.mem_range.1 hi)]
    refine List.map_congr_left fun i hi => lineAt_concat offset stream b ?_
    exact (List.mem_range.1 (List.mem_filter.1 hi).1).le
  have hline : lineAt offset (stream ++ [b]) stream.length =
      ⟨String.ofList (behind offset stream).tailText, offset + stream.length + 1⟩ := by
    rw [lineAt_concat offset stream b le_rfl, lineAt, List.take_length]
    rfl
  rw [endedLines, List.length_append, List.length_singleton, List.range_succ, List.filter_append,
    List.map_append, hold, List.filter_singleton, endsLineAt_concat_length, ← hline]
  cases b == carriageReturn || b == lineFeed && stream.getLast? != some carriageReturn <;> rfl

theorem behind_concat_of_isInner (offset : Nat) (stream : List UInt8) {b : UInt8}
    (hb : isInner b = true) :
    behind offset (stream ++ [b]) =
      { tail := (behind offset stream).tail.push b, bytes := offset + stream.length + 1 } := by
  have hreturn : b ≠ carriageReturn := by
    rintro rfl
    cases hb
  simp [behind, List.rtakeWhile_concat_pos _ _ _ hb, hreturn, Nat.add_assoc]

theorem behind_concat_of_not_isInner (offset : Nat) (stream : List UInt8) {b : UInt8}
    (hb : ¬ isInner b = true) :
    behind offset (stream ++ [b]) =
      { bytes := offset + stream.length + 1, afterReturn := b == carriageReturn } := by
  simp [behind, List.rtakeWhile_concat_neg _ _ _ hb, Nat.add_assoc]

/-- Behind a carriage return nothing is left of the line. -/
theorem tail_behind_of_afterReturn {offset : Nat} {stream : List UInt8}
    (h : stream.getLast? = some carriageReturn) : (behind offset stream).tail = #[] := by
  obtain ⟨before, rfl⟩ := List.getLast?_eq_some_iff.1 h
  rw [behind_concat_of_not_isInner offset before (by decide)]

/-- One byte takes a cutter from where it stands behind a chunk to where it stands behind both. -/
theorem step_behind (offset : Nat) (stream : List UInt8) (b : UInt8) :
    (behind offset stream).step b = (behind offset (stream ++ [b]),
      if b == carriageReturn || b == lineFeed && stream.getLast? != some carriageReturn then
        some ⟨String.ofList (behind offset stream).tailText, offset + stream.length + 1⟩
      else none) := by
  by_cases hfeed : b = lineFeed
  · subst hfeed
    rw [behind_concat_of_not_isInner offset stream (by decide)]
    by_cases hlast : stream.getLast? = some carriageReturn
    · have hafter : (behind offset stream).afterReturn = true := beq_iff_eq.2 hlast
      rw [step_lineFeed_of_afterReturn hafter, tail_behind_of_afterReturn hlast, hlast]
      rfl
    · have hafter : (behind offset stream).afterReturn = false := beq_eq_false_iff_ne.2 hlast
      rw [step_lineFeed hafter, bne_iff_ne.2 hlast]
      rfl
  by_cases hreturn : b = carriageReturn
  · subst hreturn
    rw [behind_concat_of_not_isInner offset stream (by decide), step_carriageReturn]
    rfl
  rw [behind_concat_of_isInner offset stream (by simp [isInner, hfeed, hreturn]),
    step_of_ne _ hfeed hreturn]
  simp [hfeed, hreturn, behind]

/-- A fresh cutter hands out the lines that end in the stream, and stands behind it. -/
theorem feed_fresh (offset : Nat) (stream : List UInt8) :
    ({ bytes := offset } : Cutter).feed stream =
      (behind offset stream, endedLines offset stream) := by
  induction stream using List.reverseRecOn with
  | nil => rfl
  | append_singleton stream b ih =>
    rw [feed_append, ih, endedLines_concat, feed_cons, step_behind]
    simp only [feed, Transducer.run_nil, List.append_nil]
    split <;> rfl

theorem stream_concat (calls : List Call) (call : Call) :
    Call.stream (calls ++ [call]) = Call.stream calls ++ call.bytes := by
  simp [Call.stream]

theorem answer_bytes (c : Cutter) (call : Call) :
    (c.answer call).1.bytes = c.bytes + call.bytes.length := by
  cases call with
  | push chunk => exact feed_bytes c chunk
  | finish => rfl

/-- A batch has a line, and the count of the cutter that hands it out. -/
theorem batch_of_answer {c : Cutter} {call : Call} {batch : Batch}
    (h : batch ∈ (c.answer call).2) :
    batch.lines ≠ [] ∧ batch.bytes = (c.answer call).1.bytes := by
  cases call with
  | push chunk =>
    simp only [answer, push] at h ⊢
    split at h
    · cases h
    · next hlines =>
      obtain rfl := Option.mem_some.1 h
      exact ⟨fun hnil => hlines (List.isEmpty_iff.2 hnil), rfl⟩
  | finish =>
    by_cases hempty : (Text.trimEnd c.tailText).isEmpty = true
    · rw [answer, finish_of_isEmpty hempty] at h
      cases h
    · rw [answer, finish_of_not_isEmpty hempty] at h ⊢
      obtain rfl := Option.mem_some.1 h
      exact ⟨List.cons_ne_nil _ _, rfl⟩

/-- The end of a stream gives no line, or one that is counted with all bytes and has some of them in
the tail. -/
theorem linesOf_finish_cases (c : Cutter) :
    Batch.linesOf c.finish.2 = [] ∨
      c.tail ≠ #[] ∧ ∃ text, Batch.linesOf c.finish.2 = [⟨text, c.bytes⟩] := by
  by_cases hempty : (Text.trimEnd c.tailText).isEmpty = true
  · rw [finish_of_isEmpty hempty]
    exact .inl rfl
  · rw [finish_of_not_isEmpty hempty]
    refine .inr ⟨?_, _, rfl⟩
    intro htail
    rw [tailText, htail] at hempty
    exact hempty rfl

/-- Counts that go up from line to line, with the bytes since the last of them still in the tail. -/
structure Accounts (c : Cutter) (lines : List Line) : Prop where
  increasing : (lines.map Line.bytes).Pairwise (· < ·)
  le_bytes : ∀ line ∈ lines, line.bytes + c.tail.size ≤ c.bytes

namespace Accounts

variable {c : Cutter} {lines : List Line}

theorem of_le {c' : Cutter} (h : c.Accounts lines)
    (hle : c.bytes + c'.tail.size ≤ c'.bytes + c.tail.size) : c'.Accounts lines :=
  ⟨h.increasing, fun line hline => by have := h.le_bytes line hline; omega⟩

theorem concat {c' : Cutter} {line : Line} (h : c.Accounts lines)
    (hlt : c.bytes < line.bytes + c.tail.size) (hle : line.bytes + c'.tail.size ≤ c'.bytes) :
    c'.Accounts (lines ++ [line]) := by
  have hold : ∀ old ∈ lines, old.bytes < line.bytes := fun old hmem => by
    have := h.le_bytes old hmem
    omega
  refine ⟨?_, ?_⟩
  · rw [List.map_append, List.pairwise_append]
    refine ⟨h.increasing, List.pairwise_singleton _ _, ?_⟩
    simpa using hold
  · intro old hmem
    rcases List.mem_append.1 hmem with hmem | hmem
    · have := hold old hmem
      omega
    · rwa [List.mem_singleton.1 hmem]

theorem step (h : c.Accounts lines) (b : UInt8) :
    (c.step b).1.Accounts (lines ++ (c.step b).2.toList) := by
  obtain ⟨-, -, hskip⟩ | ⟨-, hend⟩ | ⟨-, -, hinner⟩ := c.step_cases b
  · rw [hskip, Option.toList_none, List.append_nil]
    exact h.of_le (by dsimp only; omega)
  · rw [hend]
    exact h.concat (by dsimp only; omega) le_rfl
  · rw [hinner, Option.toList_none, List.append_nil]
    exact h.of_le (by simp only [Array.size_push]; omega)

theorem answer (h : c.Accounts lines) (call : Call) :
    (c.answer call).1.Accounts (lines ++ Batch.linesOf (c.answer call).2) := by
  cases call with
  | push chunk =>
    rw [Cutter.answer, linesOf_push]
    exact Transducer.run_invariant (fun _ _ b hc => hc.step b) h chunk
  | finish =>
    change Accounts { bytes := c.bytes } (lines ++ Batch.linesOf c.finish.2)
    rcases c.linesOf_finish_cases with hnone | ⟨htail, text, hline⟩
    · rw [hnone, List.append_nil]
      exact h.of_le (Nat.le_add_right _ _)
    · rw [hline]
      have := Array.size_pos_iff.2 htail
      exact h.concat (by dsimp only; omega) le_rfl

end Accounts

/-- Batches with counts that do not go down, and lines with counts that go up. -/
structure Balances (c : Cutter) (batches : List Batch) : Prop where
  accounts : c.Accounts (batches.flatMap Batch.lines)
  monotone : (batches.map Batch.bytes).Pairwise (· ≤ ·)
  le_bytes : ∀ batch ∈ batches, batch.bytes ≤ c.bytes

theorem Balances.answer {c : Cutter} {batches : List Batch} (h : c.Balances batches) (call : Call) :
    (c.answer call).1.Balances (batches ++ (c.answer call).2.toList) := by
  have hbytes : c.bytes ≤ (c.answer call).1.bytes := by
    rw [answer_bytes]
    exact Nat.le_add_right _ _
  have hold : ∀ batch ∈ batches, batch.bytes ≤ (c.answer call).1.bytes := fun batch hmem =>
    (h.le_bytes batch hmem).trans hbytes
  have hnew : ∀ batch ∈ (c.answer call).2.toList, batch.bytes = (c.answer call).1.bytes :=
    fun batch hmem => (batch_of_answer (Option.mem_toList.1 hmem)).2
  refine ⟨?_, ?_, ?_⟩
  · rw [List.flatMap_append, Batch.flatMap_toList]
    exact h.accounts.answer call
  · rw [List.map_append, List.pairwise_append]
    refine ⟨h.monotone, ?_, ?_⟩
    · cases (c.answer call).2 with
      | none => exact .nil
      | some batch => exact List.pairwise_singleton _ _
    · simp only [List.mem_map, forall_exists_index, and_imp, forall_apply_eq_imp_iff₂]
      intro old hmem batch hbatch
      rw [hnew batch hbatch]
      exact hold old hmem
  · intro batch hmem
    rcases List.mem_append.1 hmem with hmem | hmem
    · exact hold batch hmem
    · exact (hnew batch hmem).le

theorem answerAll_balances (calls : List Call) :
    (({} : Cutter).answerAll calls).1.Balances (({} : Cutter).answerAll calls).2 := by
  have hfresh : ({} : Cutter).Balances [] := ⟨⟨.nil, nofun⟩, .nil, nofun⟩
  exact Transducer.run_invariant (fun _ _ call hc => hc.answer call) hfresh calls

theorem answerAll_concat (c : Cutter) (calls : List Call) (call : Call) :
    (c.answerAll (calls ++ [call])).1 = ((c.answerAll calls).1.answer call).1 := by
  rw [answerAll, Transducer.run_append, Transducer.run_cons]
  rfl

theorem answerAll_bytes (c : Cutter) (calls : List Call) :
    (c.answerAll calls).1.bytes = c.bytes + (Call.stream calls).length := by
  induction calls using List.reverseRecOn with
  | nil => rfl
  | append_singleton calls call ih =>
    rw [answerAll_concat, answer_bytes, ih, stream_concat, List.length_append, Nat.add_assoc]

end Cutter

def Line.shift (n : Nat) (line : Line) : Line := { line with bytes := n + line.bytes }

def Batch.shift (n : Nat) (batch : Batch) : Batch where
  bytes := n + batch.bytes
  lines := batch.lines.map (Line.shift n)

namespace Cutter

/-- The cutter with its count of bytes so much higher. -/
def shift (n : Nat) (c : Cutter) : Cutter := { c with bytes := n + c.bytes }

theorem step_shift (n : Nat) (c : Cutter) (b : UInt8) :
    (c.shift n).step b = ((c.step b).1.shift n, (c.step b).2.map (Line.shift n)) := by
  by_cases hfeed : b = lineFeed
  · subst hfeed
    cases hafter : c.afterReturn with
    | true =>
      rw [step_lineFeed_of_afterReturn hafter]
      exact step_lineFeed_of_afterReturn hafter
    | false =>
      rw [step_lineFeed hafter]
      exact step_lineFeed hafter
  by_cases hreturn : b = carriageReturn
  · subst hreturn
    rw [step_carriageReturn, step_carriageReturn]
    rfl
  rw [step_of_ne _ hfeed hreturn, step_of_ne _ hfeed hreturn]
  rfl

theorem feed_shift (n : Nat) (c : Cutter) (chunk : List UInt8) :
    (c.shift n).feed chunk = ((c.feed chunk).1.shift n, (c.feed chunk).2.map (Line.shift n)) := by
  have hrun := Transducer.run_map_of_step (g := id) (step_shift n) c chunk
  rwa [List.map_id] at hrun

theorem answer_shift (n : Nat) (c : Cutter) (call : Call) :
    (c.shift n).answer call =
      ((c.answer call).1.shift n, (c.answer call).2.map (Batch.shift n)) := by
  cases call with
  | push chunk =>
    simp only [answer, push, feed_shift, List.isEmpty_map]
    split <;> rfl
  | finish =>
    by_cases hempty : (Text.trimEnd c.tailText).isEmpty = true
    · rw [answer, answer, finish_of_isEmpty hempty]
      exact finish_of_isEmpty (c := c.shift n) hempty
    · rw [answer, answer, finish_of_not_isEmpty hempty]
      exact finish_of_not_isEmpty (c := c.shift n) hempty

theorem answerAll_shift (n : Nat) (c : Cutter) (calls : List Call) :
    (c.shift n).answerAll calls =
      ((c.answerAll calls).1.shift n, (c.answerAll calls).2.map (Batch.shift n)) := by
  have hrun := Transducer.run_map_of_step (g := id) (answer_shift n) c calls
  rwa [List.map_id] at hrun

theorem finish_eq_shift (c : Cutter) : c.finish.1 = ({} : Cutter).shift c.bytes := rfl

/-- The lines of a stream that starts with a fresh cutter. -/
theorem answerAll_push (chunks : List (List UInt8)) :
    (({} : Cutter).answerAll (chunks.map .push)).2.flatMap Batch.lines =
      endedLines 0 chunks.flatten := by
  have hrun : (({} : Cutter).answerAll (chunks.map .push)) = Transducer.run push {} chunks :=
    Transducer.run_map answer Call.push {} chunks
  rw [hrun, (run_push {} chunks).2, feed_fresh 0]

theorem endedLines_shift (n : Nat) (stream : List UInt8) :
    (endedLines 0 stream).map (Line.shift n) = endedLines n stream := by
  rw [endedLines, endedLines, List.map_map]
  refine List.map_congr_left fun i _ => ?_
  simp [lineAt, Line.shift, Nat.add_assoc]

/-- Where a stream starts, a cutter is a fresh one apart from its count. -/
theorem answerAll_of_ended {calls : List Call} (h : calls.getLast? ∈ [none, some .finish]) :
    (({} : Cutter).answerAll calls).1 = ({} : Cutter).shift (Call.stream calls).length := by
  rcases List.eq_nil_or_concat calls with rfl | ⟨before, call, rfl⟩
  · rfl
  · obtain rfl : call = .finish := by simpa using h
    rw [List.concat_eq_append, answerAll_concat, stream_concat]
    change ({} : Cutter).shift (({} : Cutter).answerAll before).1.bytes = _
    rw [answerAll_bytes]
    simp [Call.bytes]

/-- All that a cutter counts, over any number of streams and ends of streams.

It has counted all bytes that it was given. A batch has a line and the count at its chunk's end, so
these counts never go down, and those of the lines go up and stay within all bytes. The lines that
chunks complete in one stream are those that its bytes end, one for each byte that ends a line, and
counted at that byte. The line that the end of a stream gives has the count of all bytes. And from
there on the cutter does what a fresh one does, with its counts higher by the bytes so far. -/
theorem bytes_accounted_for (calls : List Call) :
    let c := (({} : Cutter).answerAll calls).1
    let batches := (({} : Cutter).answerAll calls).2
    let total := (Call.stream calls).length
    c.bytes = total ∧
      (∀ call, ∀ batch ∈ (c.answer call).2,
        batch.lines ≠ [] ∧ batch.bytes = total + call.bytes.length) ∧
      (batches.map Batch.bytes).Pairwise (· ≤ ·) ∧
      ((batches.flatMap Batch.lines).map Line.bytes).Pairwise (· < ·) ∧
      (∀ line ∈ batches.flatMap Batch.lines, line.bytes ≤ total) ∧
      (∀ chunks : List (List UInt8), calls.getLast? ∈ [none, some .finish] →
        (c.answerAll (chunks.map .push)).2.flatMap Batch.lines = endedLines total chunks.flatten) ∧
      (∀ line ∈ Batch.linesOf c.finish.2, line.bytes = total) ∧
      ∀ later, c.finish.1.answerAll later =
        ((({} : Cutter).answerAll later).1.shift total,
          (({} : Cutter).answerAll later).2.map (Batch.shift total)) := by
  intro c batches total
  have hbytes : c.bytes = total := by
    rw [answerAll_bytes]
    exact Nat.zero_add _
  have hbalances : c.Balances batches := answerAll_balances calls
  refine ⟨hbytes, fun call batch hbatch => ?_, hbalances.monotone, hbalances.accounts.increasing,
    fun line hline => ?_, fun chunks hlast => ?_, fun line hline => ?_, fun later => ?_⟩
  · obtain ⟨hlines, hcount⟩ := batch_of_answer hbatch
    exact ⟨hlines, hcount.trans (by rw [answer_bytes, hbytes])⟩
  · rw [← hbytes]
    exact (Nat.le_add_right _ _).trans (hbalances.accounts.le_bytes line hline)
  · rw [show c = ({} : Cutter).shift total from answerAll_of_ended hlast, answerAll_shift,
      ← endedLines_shift, ← answerAll_push, List.flatMap_map, List.map_flatMap]
    rfl
  · rcases c.linesOf_finish_cases with hnone | ⟨-, text, hone⟩
    · rw [hnone] at hline
      cases hline
    · rw [hone] at hline
      rw [List.mem_singleton.1 hline, hbytes]
  · rw [finish_eq_shift, hbytes, answerAll_shift]

/-- A second stream starts with the line feed that would complete the carriage return at the end of
the first one, and has another such pair cut in two. -/
theorem bytes_accounted_for_two_streams :
    let calls : List Call := [.push [0x41, carriageReturn], .finish]
    let chunks : List (List UInt8) :=
      [[lineFeed, 0x42], [carriageReturn], [lineFeed, 0x20, 0x43, lineFeed, 0x44]]
    let c := (({} : Cutter).answerAll calls).1
    (c.answerAll (chunks.map .push)).2.flatMap Batch.lines = [⟨"", 3⟩, ⟨"B", 5⟩, ⟨" C", 9⟩] := by
  intro calls chunks c
  obtain ⟨-, -, -, -, -, hlines, -⟩ := bytes_accounted_for calls
  refine (hlines chunks (by decide)).trans ?_
  decide +kernel

end Cutter

end Toolpath
