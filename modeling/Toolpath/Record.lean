import Std.Data.ExtTreeMap.Lemmas
import Toolpath.Segment

/-!
# Records

A record is what one line of G-code says: a command code, words of a letter and a number each, and
a comment, whose tags are pairs of a key and a value. A letter has at most one word and a key at
most one value. Words and tags are listed in the order of letters and of keys.
-/

namespace Toolpath

/-- What a command code asks for. Any code that is none of the six is kept as it stands. -/
inductive Command where
  | rapid
  | linear
  | arc (turn : Turn)
  | absolute
  | relative
  | other (code : String)
deriving DecidableEq, Repr

namespace Command

/-- The command of a code, which is taken literally: `G01` is not `G1`. -/
def ofCode (code : String) : Command :=
  if code = "G0" then rapid
  else if code = "G1" then linear
  else if code = "G2" then arc .clockwise
  else if code = "G3" then arc .counterclockwise
  else if code = "G90" then absolute
  else if code = "G91" then relative
  else other code

def code : Command → String
  | rapid => "G0"
  | linear => "G1"
  | arc .clockwise => "G2"
  | arc .counterclockwise => "G3"
  | absolute => "G90"
  | relative => "G91"
  | other code => code

def isRecognized : Command → Bool
  | other _ => false
  | _ => true

theorem code_ofCode (s : String) : (ofCode s).code = s := by
  unfold ofCode
  split
  · simp_all [code]
  split
  · simp_all [code]
  split
  · simp_all [code]
  split
  · simp_all [code]
  split
  · simp_all [code]
  split <;> simp_all [code]

end Command

/-- A word: a letter with a number behind it, or the letter alone. -/
inductive Word where
  | number (value : Float)
  | flag
deriving DecidableEq, Repr

inductive TagValue where
  | number (value : Float)
  | text (value : String)
deriving DecidableEq, Repr

def Word.number? : Word → Option Float
  | number x => some x
  | flag => none

namespace TagValue

def number? : TagValue → Option Float
  | number x => some x
  | text _ => none

/-- A number is truthy unless it is zero or NaN, a text only if it is `true`. -/
def isTruthy : TagValue → Bool
  | number x => x != 0.0 && !x.isNaN
  | text s => s == "true"

end TagValue

abbrev Words := Std.ExtTreeMap Char Word

abbrev Tags := Std.ExtTreeMap String TagValue

structure Record where
  command : Option Command := none
  words : Words := ∅
  comment : Option String := none
  tags : Tags := ∅
deriving DecidableEq

namespace Record

def number? (r : Record) (letter : Char) : Option Float := r.words[letter]?.bind Word.number?

def tagNumber? (r : Record) (key : String) : Option Float := r.tags[key]?.bind TagValue.number?

/-- Whether the line says nothing at all. -/
def isEmpty (r : Record) : Bool := r.command.isNone && r.words.isEmpty && r.comment.isNone

end Record

end Toolpath
