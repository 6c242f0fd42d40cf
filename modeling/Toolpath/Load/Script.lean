/-!
# Scripts of a reader

What happens while a stream is read, in order: reads are answered with bytes, with no bytes at the
end of the stream, or with a failure. In between a read may be pending, and whoever holds the
handle of the load may cancel the load or release the handle. After the last event the stream is
at its end.
-/

namespace Toolpath

inductive Answer where
  | bytes (chunk : List UInt8)
  | failed (reason : String)
  /-- The read was interrupted before it took any bytes. -/
  | interrupted (reason : String)
deriving DecidableEq, Repr

inductive ReadEvent where
  | pending
  /-- The load is cancelled while the read is pending. -/
  | cancel
  /-- The handle is released, after which nobody can cancel. -/
  | release
  /-- The read is answered. If `cancelling` holds, the load is cancelled at the same moment, too
  late to stop this answer. -/
  | answer (answer : Answer) (cancelling : Bool)
deriving DecidableEq, Repr

abbrev Script := List ReadEvent

namespace Script

/-- The parts of `size` bytes, and what is left over, of bytes read in one go. No bytes are one
empty part, and so is what a size of zero leaves uncut. -/
def cutInto (size : Nat) (chunk : List UInt8) (parts : Array (List UInt8)) :
    Array (List UInt8) :=
  if size = 0 ∨ (chunk.drop size).isEmpty then parts.push chunk
  else cutInto size (chunk.drop size) (parts.push (chunk.take size))
termination_by chunk.length
decreasing_by
  rename_i h
  rw [not_or] at h
  cases chunk with
  | nil => simp at h
  | cons _ _ =>
    simp only [List.length_drop, List.length_cons]
    omega

/-- The answers with at most `size` bytes that stand for one answer. A load cancelled with the
answer is cancelled with the first of them. -/
def cutEvent (size : Nat) : ReadEvent → List ReadEvent
  | .answer (.bytes chunk) cancelling =>
    match (cutInto size chunk #[]).toList with
    | [] => []
    | first :: rest =>
      .answer (.bytes first) cancelling :: rest.map fun part => .answer (.bytes part) false
  | event => [event]

/-- The script as a reader sees it that takes at most `size` bytes at a time. -/
def cut (size : Nat) (script : Script) : Script := script.flatMap (cutEvent size)

def ofBytes (bytes : List UInt8) : Script := [.answer (.bytes bytes) false]

end Script

end Toolpath
