import Toolpath.Axis

/-!
# Positions and segments

A toolpath is made of straight segments and of arcs in the plane of the first two axes.
-/

namespace Toolpath

structure Position where
  x : Float
  y : Float
  z : Float
deriving DecidableEq, Repr

namespace Position

def origin : Position := ⟨0.0, 0.0, 0.0⟩

def coordinate (p : Position) : Axis → Float
  | .x => p.x
  | .y => p.y
  | .z => p.z

def ofAxes (f : Axis → Float) : Position := ⟨f .x, f .y, f .z⟩

@[simp] theorem coordinate_ofAxes (f : Axis → Float) (axis : Axis) :
    (ofAxes f).coordinate axis = f axis := by
  cases axis <;> rfl

@[ext] theorem ext_coordinate {p q : Position} (h : ∀ axis, p.coordinate axis = q.coordinate axis) :
    p = q := by
  cases p
  cases q
  have hx := h .x
  have hy := h .y
  have hz := h .z
  simp only [coordinate] at hx hy hz
  subst hx hy hz
  rfl

end Position

inductive Turn where
  | clockwise
  | counterclockwise
deriving DecidableEq, Repr

/-- A straight segment, or an arc around a centre. -/
inductive Shape where
  | line
  | arc (centerX centerY : Float) (turn : Turn)
deriving DecidableEq, Repr

/-- One move of the tool, with the number of the line that it comes from. -/
structure Segment where
  shape : Shape
  start : Position
  stop : Position
  feedrate : Float
  sourceLine : Nat
deriving DecidableEq, Repr

def Shape.isArc : Shape → Bool
  | line => false
  | arc .. => true

end Toolpath
