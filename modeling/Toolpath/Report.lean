import Toolpath.Json
import Toolpath.Load

/-!
# Reports

The JSON of records, segments, positions and options, and the summary of a load: how many lines and
arcs it drew, and the box around the ends of all of them.
-/

namespace Toolpath

def Word.toJson : Word → Json
  | number x => .float x
  | flag => .bool true

def TagValue.toJson : TagValue → Json
  | number x => .float x
  | text s => .text s

def Record.toJson (r : Record) : Json :=
  .object [
    ("command", .ofOption (fun command => .text command.code) r.command),
    ("args", .object (r.words.toList.map fun (letter, word) =>
      (String.singleton letter, word.toJson))),
    ("comment", .ofOption .text r.comment),
    ("tag", .object (r.tags.toList.map fun (key, value) => (key, value.toJson)))]

namespace Position

def toJson (p : Position) : Json :=
  .object [("x", .float p.x), ("y", .float p.y), ("z", .float p.z)]

def toJsonList (p : Position) : Json := .list [.float p.x, .float p.y, .float p.z]

end Position

def Turn.name : Turn → String
  | clockwise => "cw"
  | counterclockwise => "ccw"

def Segment.toJson (s : Segment) : Json :=
  let ends := [("start", s.start.toJson), ("end", s.stop.toJson)]
  let origin := [("feedrate", Json.float s.feedrate), ("source_line", .nat s.sourceLine)]
  match s.shape with
  | .line => .object ([("type", .text "line")] ++ ends ++ origin)
  | .arc centerX centerY turn =>
    let bend := [("center", Json.list [.float centerX, .float centerY]),
      ("direction", .text turn.name)]
    .object ([("type", .text "arc")] ++ ends ++ bend ++ origin)

def Options.toJson (o : Options) : Json :=
  let letter (axis : Axis) : Json := .text (String.singleton (o.axes.source axis).toChar)
  .object [
    ("layer_height", .float o.layerHeight),
    ("enable_layer_view", .bool o.layerView),
    ("x_axis", letter .x),
    ("y_axis", letter .y),
    ("z_axis", letter .z),
    ("feedrate", .float o.feedrate)]

/-- The lesser of two numbers, or the one that is a number if the other is NaN. -/
def lesser (x y : Float) : Float := if y < x || x.isNaN then y else x

/-- The greater of two numbers, or the one that is a number if the other is NaN. -/
def greater (x y : Float) : Float := if x < y || x.isNaN then y else x

@[simp] theorem lesser_self (x : Float) : lesser x x = x := ite_self x

@[simp] theorem greater_self (x : Float) : greater x x = x := ite_self x

structure Bounds where
  least : Position
  greatest : Position
deriving DecidableEq, Repr

namespace Bounds

def around (p : Position) : Bounds := ⟨p, p⟩

def reach (b : Bounds) (p : Position) : Bounds where
  least := .ofAxes fun axis => lesser (b.least.coordinate axis) (p.coordinate axis)
  greatest := .ofAxes fun axis => greater (b.greatest.coordinate axis) (p.coordinate axis)

def toJson (b : Bounds) : Json :=
  .object [("min", b.least.toJsonList), ("max", b.greatest.toJsonList)]

end Bounds

/-- How many lines and arcs were drawn, and the box around their ends, if there are any. -/
structure Tally where
  lines : Nat := 0
  arcs : Nat := 0
  bounds : Option Bounds := none
deriving DecidableEq, Repr

namespace Tally

def addPoint (bounds : Option Bounds) (p : Position) : Option Bounds :=
  some ((bounds.getD (.around p)).reach p)

def addSegment (t : Tally) (s : Segment) : Tally where
  lines := if s.shape.isArc then t.lines else t.lines + 1
  arcs := if s.shape.isArc then t.arcs + 1 else t.arcs
  bounds := addPoint (addPoint t.bounds s.start) s.stop

def addReport (t : Tally) (report : BatchReport) : Tally := report.segments.foldl addSegment t

def ofReports (reports : List BatchReport) : Tally := reports.foldl addReport {}

theorem ofReports_eq (reports : List BatchReport) :
    ofReports reports = (reports.flatMap BatchReport.segments).foldl addSegment {} := by
  rw [List.foldl_flatMap]
  rfl

theorem foldl_addSegment (t : Tally) (segments : List Segment) :
    (segments.foldl addSegment t).lines = t.lines + segments.countP (fun s => !s.shape.isArc) ∧
      (segments.foldl addSegment t).arcs = t.arcs + segments.countP (fun s => s.shape.isArc) := by
  induction segments generalizing t with
  | nil => exact ⟨rfl, rfl⟩
  | cons s rest ih =>
    obtain ⟨hlines, harcs⟩ := ih (t.addSegment s)
    rw [List.foldl_cons, hlines, harcs, List.countP_cons, List.countP_cons, addSegment]
    cases s.shape.isArc with
    | true => exact ⟨rfl, Nat.add_right_comm _ _ _⟩
    | false => exact ⟨Nat.add_right_comm _ _ _, rfl⟩

theorem lines_add_arcs (segments : List Segment) :
    (segments.foldl addSegment {}).lines + (segments.foldl addSegment {}).arcs =
      segments.length := by
  obtain ⟨hlines, harcs⟩ := foldl_addSegment {} segments
  rw [hlines, harcs, Nat.zero_add, Nat.zero_add, Nat.add_comm,
    List.length_eq_countP_add_countP fun s => s.shape.isArc]
  simp

end Tally

/-- The summary of a completed load. -/
def LoadSummary.toJson (summary : LoadSummary) (tally : Tally) : Json :=
  .object [
    ("lines", .nat summary.lines),
    ("bytes", .nat summary.bytes),
    ("primitives", .nat summary.segments),
    ("lines_out", .nat tally.lines),
    ("arcs", .nat tally.arcs),
    ("bounds", .ofOption Bounds.toJson tally.bounds)]

end Toolpath
