import Toolpath.Text.Blank
import Toolpath.Text.Utf8
import Toolpath.Transducer

/-!
# Lines of a byte stream

A cutter takes a stream in chunks, cut anywhere, and hands out the lines that each chunk completes.
A line ends at a line feed, at a carriage return, or at both, where the line feed directly follows.
The bytes of a line are decoded only when it is complete, so a character that a cut has split is
whole again. At the end of the stream the bytes after the last terminator are a line if they are
not blank.
-/

namespace Toolpath

/-- A line without its terminator, and the number of bytes of the stream up to the byte that
completed it. -/
structure Line where
  text : String
  bytes : Nat
deriving DecidableEq, Repr

/-- The lines that one chunk completed, of which there is at least one, and the number of bytes of
the stream so far. -/
structure Batch where
  bytes : Nat
  lines : List Line
deriving DecidableEq, Repr

/-- The bytes since the last terminator, the number of bytes so far, and whether the last of them
was a carriage return that ended a line. -/
structure Cutter where
  tail : Array UInt8 := #[]
  bytes : Nat := 0
  afterReturn : Bool := false
deriving DecidableEq, Repr

namespace Cutter

def lineFeed : UInt8 := 0x0A

def carriageReturn : UInt8 := 0x0D

def tailText (c : Cutter) : List Char := Text.decodeLossy c.tail.toList

def step (c : Cutter) (b : UInt8) : Cutter × Option Line :=
  let bytes := c.bytes + 1
  if c.afterReturn && b == lineFeed then
    ({ c with bytes := bytes, afterReturn := false }, none)
  else if b == lineFeed || b == carriageReturn then
    ({ tail := #[], bytes := bytes, afterReturn := b == carriageReturn },
      some ⟨String.ofList c.tailText, bytes⟩)
  else
    ({ tail := c.tail.push b, bytes := bytes, afterReturn := false }, none)

def feed (c : Cutter) (chunk : List UInt8) : Cutter × List Line := Transducer.run step c chunk

/-- Takes a chunk of bytes: the batch that it completes, if it completes a line at all. -/
def push (c : Cutter) (chunk : List UInt8) : Cutter × Option Batch :=
  let (c, lines) := c.feed chunk
  (c, if lines.isEmpty then none else some ⟨c.bytes, lines⟩)

/-- The end of the stream: the last line, if it is not blank, without the blanks at its end. The
cutter goes on as if at the start of a stream, apart from the number of bytes. -/
def finish (c : Cutter) : Cutter × Option Batch :=
  let text := Text.trimEnd c.tailText
  ({ bytes := c.bytes },
    if text.isEmpty then none else some ⟨c.bytes, [⟨String.ofList text, c.bytes⟩]⟩)

theorem finish_of_isEmpty {c : Cutter} (h : (Text.trimEnd c.tailText).isEmpty = true) :
    c.finish = ({ bytes := c.bytes }, none) := by
  simp [finish, h]

theorem finish_of_not_isEmpty {c : Cutter} (h : ¬ (Text.trimEnd c.tailText).isEmpty = true) :
    c.finish = ({ bytes := c.bytes },
      some ⟨c.bytes, [⟨String.ofList (Text.trimEnd c.tailText), c.bytes⟩]⟩) := by
  simp [finish, h]

theorem feed_append (c : Cutter) (first second : List UInt8) :
    c.feed (first ++ second) =
      (((c.feed first).1.feed second).1,
        (c.feed first).2 ++ ((c.feed first).1.feed second).2) :=
  Transducer.run_append step c first second

theorem step_lineFeed_of_afterReturn {c : Cutter} (h : c.afterReturn = true) :
    c.step lineFeed = ({ c with bytes := c.bytes + 1, afterReturn := false }, none) := by
  simp [step, h]

theorem step_lineFeed {c : Cutter} (h : c.afterReturn = false) :
    c.step lineFeed = ({ bytes := c.bytes + 1 }, some ⟨String.ofList c.tailText, c.bytes + 1⟩) := by
  simp [step, h, lineFeed, carriageReturn]

theorem step_carriageReturn (c : Cutter) :
    c.step carriageReturn =
      ({ bytes := c.bytes + 1, afterReturn := true },
        some ⟨String.ofList c.tailText, c.bytes + 1⟩) := by
  simp [step, lineFeed, carriageReturn]

theorem step_of_ne (c : Cutter) {b : UInt8} (hfeed : b ≠ lineFeed) (hreturn : b ≠ carriageReturn) :
    c.step b = ({ tail := c.tail.push b, bytes := c.bytes + 1 }, none) := by
  simp [step, hfeed, hreturn]

/-- All that one byte can do: complete a line end that is half there, end a line, or extend it. -/
theorem step_cases (c : Cutter) (b : UInt8) :
    (c.afterReturn = true ∧ b = lineFeed ∧
      c.step b = ({ c with bytes := c.bytes + 1, afterReturn := false }, none)) ∨
    ((c.afterReturn = false ∧ b = lineFeed ∨ b = carriageReturn) ∧
      c.step b = ({ bytes := c.bytes + 1, afterReturn := b == carriageReturn },
        some ⟨String.ofList c.tailText, c.bytes + 1⟩)) ∨
    (b ≠ lineFeed ∧ b ≠ carriageReturn ∧
      c.step b = ({ tail := c.tail.push b, bytes := c.bytes + 1 }, none)) := by
  by_cases hfeed : b = lineFeed
  · subst hfeed
    cases hafter : c.afterReturn with
    | true => exact .inl ⟨rfl, rfl, step_lineFeed_of_afterReturn hafter⟩
    | false => exact .inr (.inl ⟨.inl ⟨rfl, rfl⟩, step_lineFeed hafter⟩)
  by_cases hreturn : b = carriageReturn
  · subst hreturn
    exact .inr (.inl ⟨.inr rfl, step_carriageReturn c⟩)
  · exact .inr (.inr ⟨hfeed, hreturn, step_of_ne c hfeed hreturn⟩)

theorem feed_cons (c : Cutter) (b : UInt8) (rest : List UInt8) :
    c.feed (b :: rest) =
      (((c.step b).1.feed rest).1, (c.step b).2.toList ++ ((c.step b).1.feed rest).2) :=
  Transducer.run_cons step c b rest

theorem step_bytes (c : Cutter) (b : UInt8) : (c.step b).1.bytes = c.bytes + 1 := by
  obtain ⟨-, -, h⟩ | ⟨-, h⟩ | ⟨-, -, h⟩ := c.step_cases b <;> rw [h]

theorem feed_bytes (c : Cutter) (chunk : List UInt8) :
    (c.feed chunk).1.bytes = c.bytes + chunk.length := by
  induction chunk generalizing c with
  | nil => simp [feed]
  | cons b rest ih =>
    rw [feed_cons, ih, step_bytes, List.length_cons]
    omega

end Cutter

def Batch.linesOf (batch : Option Batch) : List Line := (batch.map Batch.lines).getD []

/-- The batches of a whole stream that comes in chunks. -/
def Batch.ofChunks (chunks : List (List UInt8)) : List Batch :=
  let (c, batches) := Transducer.run Cutter.push {} chunks
  batches ++ c.finish.2.toList

@[simp] theorem Batch.linesOf_none : Batch.linesOf none = [] := rfl

@[simp] theorem Batch.linesOf_some (batch : Batch) : Batch.linesOf (some batch) = batch.lines := rfl

theorem Batch.flatMap_toList (batch : Option Batch) :
    batch.toList.flatMap Batch.lines = Batch.linesOf batch := by
  cases batch with
  | none => rfl
  | some batch => exact List.append_nil batch.lines

namespace Cutter

@[simp] theorem push_fst (c : Cutter) (chunk : List UInt8) : (c.push chunk).1 = (c.feed chunk).1 :=
  rfl

@[simp] theorem linesOf_push (c : Cutter) (chunk : List UInt8) :
    Batch.linesOf (c.push chunk).2 = (c.feed chunk).2 := by
  unfold push
  cases h : (c.feed chunk).2 with
  | nil => simp [h]
  | cons line rest => simp [h]

end Cutter

def Line.ofBytes (bytes : List UInt8) : List Line :=
  let (c, lines) := ({} : Cutter).feed bytes
  lines ++ Batch.linesOf c.finish.2

end Toolpath
