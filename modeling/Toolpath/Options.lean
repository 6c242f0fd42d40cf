import Toolpath.Axis

/-!
# Options

What a caller fixes before a load, and to which every reset of the machine returns.
-/

namespace Toolpath

structure Options where
  /-- The height of one layer, by which a layer tag moves the tool. -/
  layerHeight : Float := 0.1
  /-- Whether layer tags move the tool at all. -/
  layerView : Bool := false
  axes : AxisMap := .identity
  /-- The feedrate of moves that name none. -/
  feedrate : Float := 100.0
deriving DecidableEq, Repr

end Toolpath
