import Toolpath.Decimal.Numeral
import Toolpath.Record
import Toolpath.Text.Blank
import Toolpath.Text.Case
import Toolpath.Text.Split

/-!
# Tags of a comment

A comment is cut at its commas, and each part at its first colon into a key and a value. Both are
trimmed, and keys are lower-cased. A value that spells a finite number is that number, any other is
a lower-cased text. Parts without a colon say nothing, and of two parts with one key the later
counts.
-/

namespace Toolpath

/-- The value that a trimmed text stands for. -/
def TagValue.ofText (raw : List Char) : TagValue :=
  match (floatOfText? raw).filter Float.isFinite with
  | some x => number x
  | none => text (String.ofList (Text.lower raw))

namespace Tags

/-- The key and the value of one part of a comment. -/
def entry? (part : List Char) : Option (String × TagValue) :=
  (Text.splitFirst? ':' part).map fun (key, value) =>
    (String.ofList (Text.lower (Text.trim key)), TagValue.ofText (Text.trim value))

def entries (comment : List Char) : List (String × TagValue) :=
  (comment.splitOn ',').filterMap entry?

def ofComment (comment : List Char) : Tags := Std.ExtTreeMap.ofList (entries comment)

end Tags

end Toolpath
