import Toolpath.Error
import Toolpath.Text.Blank

/-!
# Axes and the letters they read from

A tool moves along three axes. Each axis reads its coordinate from the word of some letter, by
default the letter of its own name.
-/

namespace Toolpath

inductive Axis where
  | x
  | y
  | z
deriving DecidableEq, Repr

inductive AxisLetter where
  | x | y | z | a | b | c | u | v | w | e | i | j
deriving DecidableEq, Repr

namespace AxisLetter

def all : List AxisLetter := [x, y, z, a, b, c, u, v, w, e, i, j]

def toChar : AxisLetter → Char
  | x => 'x'
  | y => 'y'
  | z => 'z'
  | a => 'a'
  | b => 'b'
  | c => 'c'
  | u => 'u'
  | v => 'v'
  | w => 'w'
  | e => 'e'
  | i => 'i'
  | j => 'j'

def ofChar? (char : Char) : Option AxisLetter :=
  all.find? fun letter => letter.toChar == char

/-- The letter that a text names: one of the twelve in either ASCII case, between blanks. -/
def ofText? (s : List Char) : Option AxisLetter :=
  match Text.trim s with
  | [letter] => ofChar? letter.toLower
  | _ => none

/-- As `ofText?`, with the text itself in the error. -/
def ofString (s : String) : Except Error AxisLetter :=
  match ofText? s.toList with
  | some letter => .ok letter
  | none => .error (.unknownAxisLetter s)

@[simp] theorem ofChar?_toChar (letter : AxisLetter) : ofChar? letter.toChar = some letter := by
  cases letter <;> rfl

theorem ofChar?_eq_some_iff {char : Char} {letter : AxisLetter} :
    ofChar? char = some letter ↔ letter.toChar = char := by
  constructor
  · intro h
    simpa using List.find?_some h
  · rintro rfl
    simp

end AxisLetter

structure AxisMap where
  x : AxisLetter
  y : AxisLetter
  z : AxisLetter
deriving DecidableEq, Repr

namespace AxisMap

def identity : AxisMap := ⟨.x, .y, .z⟩

def source (m : AxisMap) : Axis → AxisLetter
  | .x => m.x
  | .y => m.y
  | .z => m.z

def setSource (m : AxisMap) (axis : Axis) (letter : AxisLetter) : AxisMap :=
  match axis with
  | .x => { m with x := letter }
  | .y => { m with y := letter }
  | .z => { m with z := letter }

@[ext] theorem ext_source {m n : AxisMap} (h : ∀ axis, m.source axis = n.source axis) : m = n := by
  cases m
  cases n
  have hx := h .x
  have hy := h .y
  have hz := h .z
  simp only [source] at hx hy hz
  subst hx hy hz
  rfl

end AxisMap

end Toolpath
