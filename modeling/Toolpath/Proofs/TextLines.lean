import Toolpath.Line
import Toolpath.Proofs.Decoding

/-!
# Lines of a text

`Text.lines` cuts a text, given as characters, at its line ends. A cutter cuts a stream of bytes,
chunk by chunk, and decodes every line on its own. Both give the same lines: decoding the whole
stream and cutting the text comes to the same as cutting the stream, in whatever chunks, and
decoding the lines.
-/

namespace Toolpath

namespace Text

/-- The texts before each line end, and the text behind the last one. A line feed right after a
carriage return ends no line of its own. -/
def splitLines : List Char → List (List Char) × List Char
  | [] => ([], [])
  | '\r' :: '\n' :: s | '\r' :: s | '\n' :: s => ([] :: (splitLines s).1, (splitLines s).2)
  | c :: s => match splitLines s with
    | ([], last) => ([], c :: last)
    | (line :: lines, last) => ((c :: line) :: lines, last)

/-- The lines of a text: all that a line end closes, as they stand, and what comes behind without
its trailing blanks, unless nothing is left of it. -/
def lines (s : List Char) : List (List Char) :=
  let (closed, last) := splitLines s
  closed ++ if (trimEnd last).isEmpty then [] else [trimEnd last]

/-- A text without the line feed that completes a carriage return before it. -/
def skipFeed : List Char → List Char
  | '\n' :: s => s
  | s => s

theorem skipFeed_of_head? {s : List Char} (h : s.head? ≠ some '\n') : skipFeed s = s := by
  unfold skipFeed
  split
  · exact absurd rfl h
  · rfl

theorem splitLines_lineFeed (s : List Char) :
    splitLines ('\n' :: s) = ([] :: (splitLines s).1, (splitLines s).2) := by
  simp [splitLines]

theorem splitLines_carriageReturn (s : List Char) :
    splitLines ('\r' :: s) = ([] :: (splitLines (skipFeed s)).1, (splitLines (skipFeed s)).2) := by
  by_cases h : s.head? = some '\n'
  · obtain ⟨rest, rfl⟩ := List.head?_eq_some_iff.1 h
    simp [splitLines, skipFeed]
  · rw [skipFeed_of_head? h, splitLines]
    intro rest hrest
    exact h (List.head?_eq_some_iff.2 ⟨rest, hrest⟩)

def IsInner (c : Char) : Prop := c ≠ '\n' ∧ c ≠ '\r'

theorem splitLines_cons_of_isInner {c : Char} (h : IsInner c) (s : List Char) :
    splitLines (c :: s) = match splitLines s with
      | ([], last) => ([], c :: last)
      | (line :: lines, last) => ((c :: line) :: lines, last) := by
  rw [splitLines]
  · intro rest hc
    exact absurd hc h.2
  · exact h.2
  · exact h.1

theorem splitLines_of_isInner {s : List Char} (h : ∀ c ∈ s, IsInner c) : splitLines s = ([], s) := by
  induction s with
  | nil => rfl
  | cons c s ih =>
    rw [splitLines_cons_of_isInner (h c List.mem_cons_self),
      ih fun d hd => h d (List.mem_cons_of_mem _ hd)]

theorem splitLines_append_of_isInner {s : List Char} (h : ∀ c ∈ s, IsInner c) {rest : List Char}
    {closed : List (List Char)} {last : List Char} (hrest : splitLines rest = ([] :: closed, last)) :
    splitLines (s ++ rest) = (s :: closed, last) := by
  induction s with
  | nil => exact hrest
  | cons c s ih =>
    rw [List.cons_append, splitLines_cons_of_isInner (h c List.mem_cons_self),
      ih fun d hd => h d (List.mem_cons_of_mem _ hd)]

end Text

namespace Cutter

structure IsTidy (c : Cutter) : Prop where
  inner : ∀ b ∈ c.tail.toList, b ≠ lineFeed ∧ b ≠ carriageReturn
  tail_eq : c.afterReturn = true → c.tail = #[]

variable {c : Cutter}

theorem isTidy_of_tail_eq (h : c.tail = #[]) : c.IsTidy := ⟨by simp [h], fun _ => h⟩

theorem IsTidy.push {b : UInt8} (h : c.IsTidy) (hfeed : b ≠ lineFeed)
    (hreturn : b ≠ carriageReturn) (n : Nat) :
    IsTidy { tail := c.tail.push b, bytes := n } := by
  refine ⟨?_, by simp⟩
  intro a ha
  rw [Array.toList_push, List.mem_append, List.mem_singleton] at ha
  rcases ha with hold | rfl
  · exact h.inner a hold
  · exact ⟨hfeed, hreturn⟩

theorem IsTidy.isInner_of_mem (h : c.IsTidy) : ∀ d ∈ c.tailText, Text.IsInner d := by
  intro d hd
  constructor
  · rintro rfl
    obtain ⟨b, hb, heq⟩ := Text.exists_byte_of_mem_decodeLossy hd (by decide)
    exact (h.inner b hb).1 (UInt8.toNat_inj.1 heq)
  · rintro rfl
    obtain ⟨b, hb, heq⟩ := Text.exists_byte_of_mem_decodeLossy hd (by decide)
    exact (h.inner b hb).2 (UInt8.toNat_inj.1 heq)

/-- The text that a cutter still has to cut when `bytes` are to come. -/
def pendingText (c : Cutter) (bytes : List UInt8) : List Char :=
  let s := Text.decodeLossy (c.tail.toList ++ bytes)
  if c.afterReturn then Text.skipFeed s else s

theorem pendingText_of_tail_eq (h : c.tail = #[]) (bytes : List UInt8) :
    c.pendingText bytes =
      if c.afterReturn then Text.skipFeed (Text.decodeLossy bytes) else Text.decodeLossy bytes := by
  simp [pendingText, h]

theorem pendingText_of_not_afterReturn (h : c.afterReturn = false) (bytes : List UInt8) :
    c.pendingText bytes = Text.decodeLossy (c.tail.toList ++ bytes) := by
  simp [pendingText, h]

/-- Behind a carriage return, a byte that is no line feed is read as anywhere else. -/
theorem IsTidy.pendingText_cons_of_ne (h : c.IsTidy) {b : UInt8} (hb : b ≠ lineFeed)
    (rest : List UInt8) :
    c.pendingText (b :: rest) = Text.decodeLossy (c.tail.toList ++ b :: rest) := by
  cases hafter : c.afterReturn with
  | false => exact pendingText_of_not_afterReturn hafter (b :: rest)
  | true =>
    rw [pendingText, hafter, if_pos rfl, h.tail_eq hafter]
    apply Text.skipFeed_of_head?
    intro hhead
    exact hb (UInt8.toNat_inj.1 (Text.toNat_eq_of_head?_decodeLossy hhead (by decide)).symm)

/-- Feeding bytes cuts the text that they make up with those before them. -/
theorem IsTidy.splitLines_pendingText (h : c.IsTidy) (bytes : List UInt8) :
    Text.splitLines (c.pendingText bytes) =
      ((c.feed bytes).2.map fun line => line.text.toList, (c.feed bytes).1.tailText) := by
  -- A line end is an ASCII byte, so decoding the whole text decodes the pieces around it.
  induction bytes generalizing c with
  | nil =>
    have htext : c.pendingText [] = c.tailText := by
      cases hafter : c.afterReturn with
      | false => simp [pendingText, hafter, tailText]
      | true => simp [pendingText, hafter, tailText, h.tail_eq hafter, Text.skipFeed]
    rw [htext, Text.splitLines_of_isInner h.isInner_of_mem]
    rfl
  | cons b rest ih =>
    rw [feed_cons]
    by_cases hfeed : b = lineFeed
    · subst hfeed
      cases hafter : c.afterReturn with
      | true =>
        have htail := h.tail_eq hafter
        have hrest := ih (c := { c with bytes := c.bytes + 1, afterReturn := false })
          (isTidy_of_tail_eq htail)
        rw [pendingText_of_not_afterReturn rfl, htail] at hrest
        rw [step_lineFeed_of_afterReturn hafter, pendingText_of_tail_eq htail, hafter,
          Text.decodeLossy_cons_ascii (by decide), htail]
        exact hrest
      | false =>
        have hrest := ih (c := { bytes := c.bytes + 1 }) (isTidy_of_tail_eq rfl)
        rw [pendingText_of_tail_eq rfl, if_neg Bool.false_ne_true] at hrest
        have hline := Text.splitLines_lineFeed (Text.decodeLossy rest)
        rw [hrest] at hline
        rw [step_lineFeed hafter, pendingText_of_not_afterReturn hafter,
          Text.decodeLossy_append_ascii _ (by decide)]
        have htext : ∀ d ∈ Text.decodeLossy c.tail.toList, Text.IsInner d := h.isInner_of_mem
        refine (Text.splitLines_append_of_isInner htext hline).trans ?_
        simp [tailText]
    · by_cases hreturn : b = carriageReturn
      · subst hreturn
        have hrest := ih (c := { bytes := c.bytes + 1, afterReturn := true })
          (isTidy_of_tail_eq rfl)
        rw [pendingText_of_tail_eq rfl, if_pos rfl] at hrest
        have hline := Text.splitLines_carriageReturn (Text.decodeLossy rest)
        rw [hrest] at hline
        rw [step_carriageReturn, h.pendingText_cons_of_ne hfeed,
          Text.decodeLossy_append_ascii _ (by decide)]
        have htext : ∀ d ∈ Text.decodeLossy c.tail.toList, Text.IsInner d := h.isInner_of_mem
        refine (Text.splitLines_append_of_isInner htext hline).trans ?_
        simp [tailText]
      · have hrest := ih (h.push hfeed hreturn (c.bytes + 1))
        rw [pendingText_of_not_afterReturn rfl] at hrest
        rw [step_of_ne c hfeed hreturn, h.pendingText_cons_of_ne hfeed]
        simpa using hrest

theorem finish_texts (c : Cutter) :
    (Batch.linesOf c.finish.2).map (fun line => line.text.toList) =
      if (Text.trimEnd c.tailText).isEmpty then [] else [Text.trimEnd c.tailText] := by
  by_cases hempty : (Text.trimEnd c.tailText).isEmpty = true
  · rw [finish_of_isEmpty hempty, if_pos hempty]
    rfl
  · rw [finish_of_not_isEmpty hempty, if_neg hempty]
    simp

theorem run_push (c : Cutter) (chunks : List (List UInt8)) :
    (Transducer.run push c chunks).1 = (c.feed chunks.flatten).1 ∧
      (Transducer.run push c chunks).2.flatMap Batch.lines = (c.feed chunks.flatten).2 := by
  induction chunks generalizing c with
  | nil => exact ⟨rfl, rfl⟩
  | cons chunk rest ih =>
    obtain ⟨hstate, hlines⟩ := ih (c.feed chunk).1
    rw [Transducer.run_cons, List.flatten_cons, feed_append, push_fst]
    refine ⟨hstate, ?_⟩
    rw [List.flatMap_append, hlines, Batch.flatMap_toList, linesOf_push]

end Cutter

/-- The lines of all batches of a stream are the lines of its bytes, however it is cut. -/
theorem Batch.ofChunks_lines (chunks : List (List UInt8)) :
    (Batch.ofChunks chunks).flatMap Batch.lines = Line.ofBytes chunks.flatten := by
  obtain ⟨hstate, hlines⟩ := Cutter.run_push {} chunks
  unfold Batch.ofChunks Line.ofBytes
  simp only
  rw [List.flatMap_append, hlines, hstate, Batch.flatMap_toList]

/-- Whatever the bytes and however they are cut, cutting the stream and decoding its lines gives
what decoding the stream and cutting its text gives. -/
theorem Cutter.texts_of_chunks (chunks : List (List UInt8)) :
    ((Batch.ofChunks chunks).flatMap Batch.lines).map (fun line => line.text.toList) =
      Text.lines (Text.decodeLossy chunks.flatten) := by
  have htidy : ({} : Cutter).IsTidy := Cutter.isTidy_of_tail_eq rfl
  have hsplit := htidy.splitLines_pendingText chunks.flatten
  rw [Cutter.pendingText_of_tail_eq rfl, if_neg Bool.false_ne_true] at hsplit
  rw [Batch.ofChunks_lines, Text.lines, hsplit]
  unfold Line.ofBytes
  simp only
  rw [List.map_append, Cutter.finish_texts]

end Toolpath
