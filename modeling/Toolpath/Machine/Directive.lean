import Toolpath.Machine

/-!
# Directives

A file can carry its own viewing settings in the tags of its comments. Other than modal settings,
directives also change the options of the machine, so that a reset keeps them.
-/

namespace Toolpath

def Axis.directiveKey : Axis → String
  | .x => "x_axis"
  | .y => "y_axis"
  | .z => "z_axis"

namespace Record

def axisLetter? (r : Record) (axis : Axis) : Option AxisLetter :=
  match r.tags[axis.directiveKey]? with
  | some (.text s) => AxisLetter.ofText? s.toList
  | _ => none

/-- Whether a record shows layers, if it says so: only the text `true` hides them, any other value
shows them. -/
def layerView? (r : Record) : Option Bool :=
  r.tags["hide_layers"]?.map fun value => value != .text "true"

def layerHeight? (r : Record) : Option Float := r.tagNumber? "layer_height"

end Record

/-- A change of one setting, in the options and in force at once. -/
inductive Directive where
  | axisSource (axis : Axis) (letter : AxisLetter)
  | layerView (on : Bool)
  | layerHeight (height : Float)
deriving DecidableEq, Repr

/-- The directives of a record, at most one for each setting. -/
def Directive.ofRecord (r : Record) : List Directive :=
  [(r.axisLetter? .x).map (axisSource .x), (r.axisLetter? .y).map (axisSource .y),
    (r.axisLetter? .z).map (axisSource .z), r.layerView?.map layerView,
    r.layerHeight?.map layerHeight].filterMap id

namespace Machine

/-- Follows one directive, now and after every later reset. -/
def follow (m : Machine) : Directive → Machine
  | .axisSource axis letter =>
    { m with
      options := { m.options with axes := m.options.axes.setSource axis letter }
      modal := { m.modal with axes := m.modal.axes.setSource axis letter } }
  | .layerView on =>
    { m with
      options := { m.options with layerView := on }
      modal := { m.modal with layerView := on } }
  | .layerHeight height =>
    { m with
      options := { m.options with layerHeight := height }
      modal := { m.modal with layerHeight := height } }

/-- Follows the directives of a record, and says whether it has any. -/
def applyDirectives (m : Machine) (r : Record) : Machine × Bool :=
  let directives := Directive.ofRecord r
  (directives.foldl follow m, !directives.isEmpty)

end Machine

end Toolpath
