import Toolpath.Machine.Layer
import Toolpath.Options
import Toolpath.Transducer

/-!
# The modal machine

The machine takes one record after the other. A record may change modal settings, which stay until
another record changes them, and it may move the tool, which emits a segment. After every record
the position is added to the trace. The tags of a record take effect before its own move.
-/

namespace Toolpath

inductive Positioning where
  | absolute
  | relative
deriving DecidableEq, Repr

/-- What lasts from one record to the next. -/
@[ext] structure Modal where
  positioning : Positioning
  feedrate : Float
  layerHeight : Float
  layerView : Bool
  totalLayers : UInt32
  axes : AxisMap
  position : Position
  lineCount : Nat
deriving DecidableEq

namespace Modal

def ofOptions (o : Options) : Modal where
  positioning := .absolute
  feedrate := o.feedrate
  layerHeight := o.layerHeight
  layerView := o.layerView
  totalLayers := 0
  axes := o.axes
  position := .origin
  lineCount := 0

def totalLayersKeys : List String := ["total_layers", "total_layer", "totallayers", "totallayer"]

/-- The total of a record: the value of the first key present, if it is a number and not negative,
without its fraction and at most `2 ^ 32 - 1`. -/
def totalLayersOf? (tags : Tags) : Option UInt32 :=
  let value := totalLayersKeys.findSome? fun key => tags[key]?
  ((value.bind TagValue.number?).filter fun x => 0.0 ≤ x).map Float.toUInt32

/-- The settings that a record's tags leave, apart from the position. -/
def applySettings (m : Modal) (r : Record) : Modal :=
  { m with
    feedrate := (r.tagNumber? "cts").getD m.feedrate
    layerHeight := (r.tagNumber? "layer_height").getD m.layerHeight
    totalLayers := (totalLayersOf? r.tags).getD m.totalLayers
    layerView := (r.tags["enable_layer_view"]?.map TagValue.isTruthy).getD m.layerView }

/-- The height of the layer that a record's layer tag names, while layer tags move the tool. -/
def layerZ? (m : Modal) (r : Record) : Option Float :=
  if m.layerView then
    (r.tags["layer"]?.bind Layer.index?).map fun index => Float.ofInt index * m.layerHeight
  else none

/-- Settings first, so that a layer tag beside them already counts with them. -/
def applyTags (m : Modal) (r : Record) : Modal :=
  let m := m.applySettings r
  { m with position := { m.position with z := (m.layerZ? r).getD m.position.z } }

/-- Where a move ends on one axis. A coordinate left out means no movement along it. -/
def target (m : Modal) (r : Record) (axis : Axis) : Float :=
  let current := m.position.coordinate axis
  let word := r.number? (m.axes.source axis).toChar
  match m.positioning with
  | .absolute => word.getD current
  | .relative => current + word.getD 0.0

/-- The shape that a record draws. The centre of an arc is given from its start. -/
def shape? (m : Modal) (r : Record) : Option Shape :=
  match r.command with
  | some .rapid | some .linear => some .line
  | some (.arc turn) =>
    some (.arc (m.position.x + (r.number? 'i').getD 0.0)
      (m.position.y + (r.number? 'j').getD 0.0) turn)
  | _ => none

def segment? (m : Modal) (r : Record) : Option Segment :=
  (m.shape? r).map fun shape =>
    { shape := shape
      start := m.position
      stop := .ofAxes (m.target r)
      feedrate := (r.number? 'f').getD m.feedrate
      sourceLine := m.lineCount }

def positioningAfter (m : Modal) (r : Record) : Positioning :=
  match r.command with
  | some .absolute => .absolute
  | some .relative => .relative
  | _ => m.positioning

def step (m : Modal) (r : Record) : Modal × Option Segment :=
  let m := { m with lineCount := m.lineCount + 1 }.applyTags r
  let segment := m.segment? r
  ({ m with
      positioning := m.positioningAfter r
      position := (segment.map Segment.stop).getD m.position },
    segment)

section Step

variable (m : Modal) (r : Record)

@[simp] theorem step_positioning : (m.step r).1.positioning = m.positioningAfter r := rfl

@[simp] theorem step_feedrate :
    (m.step r).1.feedrate = (r.tagNumber? "cts").getD m.feedrate := rfl

@[simp] theorem step_layerHeight :
    (m.step r).1.layerHeight = (r.tagNumber? "layer_height").getD m.layerHeight := rfl

@[simp] theorem step_layerView :
    (m.step r).1.layerView =
      (r.tags["enable_layer_view"]?.map TagValue.isTruthy).getD m.layerView := rfl

@[simp] theorem step_totalLayers :
    (m.step r).1.totalLayers = (totalLayersOf? r.tags).getD m.totalLayers := rfl

@[simp] theorem step_axes : (m.step r).1.axes = m.axes := rfl

@[simp] theorem step_lineCount : (m.step r).1.lineCount = m.lineCount + 1 := rfl

/-- A record sees nothing of the settings that its own tags replace. -/
theorem step_congr {m n : Modal} (h : m.applySettings r = n.applySettings r) :
    m.step r = n.step r := by
  have hstep : ∀ m : Modal, m.step r =
      let m := m.applySettings r
      let m := { m with
        lineCount := m.lineCount + 1
        position := { m.position with z := (m.layerZ? r).getD m.position.z } }
      ({ m with
          positioning := m.positioningAfter r
          position := ((m.segment? r).map Segment.stop).getD m.position },
        m.segment? r) := fun _ => rfl
  rw [hstep m, hstep n, h]

end Step

end Modal

@[ext] structure Machine where
  options : Options
  modal : Modal
  /-- The position after every record since the trace was last emptied. -/
  trace : Array Position
deriving DecidableEq

namespace Machine

def ofOptions (o : Options) : Machine := ⟨o, .ofOptions o, #[]⟩

/-- Forgets every record and starts again from the options. -/
def reset (m : Machine) : Machine := ofOptions m.options

def takeTrace (m : Machine) : Machine × Array Position := ({ m with trace := #[] }, m.trace)

def process (m : Machine) (r : Record) : Machine × Option Segment :=
  let (modal, segment) := m.modal.step r
  ({ m with modal := modal, trace := m.trace.push modal.position }, segment)

def processAll (m : Machine) (records : List Record) : Machine × List Segment :=
  Transducer.run process m records

@[simp] theorem process_options (m : Machine) (r : Record) : (m.process r).1.options = m.options :=
  rfl

@[simp] theorem process_modal (m : Machine) (r : Record) :
    (m.process r).1.modal = (m.modal.step r).1 := rfl

@[simp] theorem process_trace (m : Machine) (r : Record) :
    (m.process r).1.trace = m.trace.push (m.modal.step r).1.position := rfl

@[simp] theorem process_snd (m : Machine) (r : Record) :
    (m.process r).2 = (m.modal.step r).2 := rfl

theorem processAll_cons (m : Machine) (r : Record) (rest : List Record) :
    m.processAll (r :: rest) =
      (((m.process r).1.processAll rest).1,
        (m.process r).2.toList ++ ((m.process r).1.processAll rest).2) :=
  Transducer.run_cons process m r rest

theorem processAll_append (m : Machine) (first second : List Record) :
    m.processAll (first ++ second) =
      (((m.processAll first).1.processAll second).1,
        (m.processAll first).2 ++ ((m.processAll first).1.processAll second).2) :=
  Transducer.run_append process m first second

@[simp] theorem processAll_options (m : Machine) (records : List Record) :
    (m.processAll records).1.options = m.options := by
  induction records generalizing m with
  | nil => rfl
  | cons r rest ih => rw [processAll_cons, ih, process_options]

@[simp] theorem processAll_axes (m : Machine) (records : List Record) :
    (m.processAll records).1.modal.axes = m.modal.axes := by
  induction records generalizing m with
  | nil => rfl
  | cons r rest ih => rw [processAll_cons, ih, process_modal, Modal.step_axes]

end Machine

end Toolpath
