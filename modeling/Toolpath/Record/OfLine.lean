import Toolpath.Record.Tags
import Toolpath.Record.Words
import Toolpath.Text.Utf8

/-!
# Reading a line

The instruction of a line ends at its first semicolon and the rest is its comment. Every text is
some record: unknown codes, stray characters and missing numbers are no errors. Bytes are refused
only if they are no text.
-/

namespace Toolpath.Record

/-- The instruction of a line and its comment, if it has one, trimmed. -/
def splitComment (line : List Char) : List Char × Option (List Char) :=
  match Text.splitFirst? ';' line with
  | some (instruction, comment) => (instruction, some (Text.trim comment))
  | none => (line, none)

def ofText (line : List Char) : Record :=
  let (instruction, comment) := splitComment line
  { command := Command.ofInstruction? instruction
    words := Words.ofText (Command.argumentText instruction)
    comment := comment.map String.ofList
    tags := (comment.map Tags.ofComment).getD ∅ }

def ofLine (line : String) : Record := ofText line.toList

/-- The record of a line of bytes, where `number` labels the error. -/
def ofBytes (bytes : List UInt8) (number : Nat) : Except Error Record :=
  match Text.decodeStrict bytes with
  | .ok line => .ok (ofText line)
  | .error offset => .error (.notText number offset)

end Toolpath.Record
