import Toolpath.Proofs.Directives
import Toolpath.Proofs.Moves
import Toolpath.Proofs.Truncation

/-!
# Modal settings by their last writers

Every modal setting is what the last record that sets it says, or what the machine started with if
none does. Each setting has keys or commands of its own, and no other record has an influence on
it. A feed word in particular counts for the segment of its own record only.
-/

namespace Toolpath

namespace Record

/-- The positioning that a record sets by the code of its command. -/
def positioning? (r : Record) : Option Positioning :=
  if r.command = some (.ofCode "G90") then some .absolute
  else if r.command = some (.ofCode "G91") then some .relative
  else none

def layerViewTag? (r : Record) : Option Bool := r.tags["enable_layer_view"]?.map TagValue.isTruthy

/-- The number of layers that a record announces, under the first key that it has. -/
def totalLayers? (r : Record) : Option Nat :=
  let keys := ["total_layers", "total_layer", "totallayers", "totallayer"]
  let value : Option TagValue := keys.findSome? fun key => r.tags[key]?
  match value with
  | some (.number x) => if 0.0 ≤ x then some (Binary.saturated x) else none
  | _ => none

/-- The record without its feed word. -/
def withoutFeed (r : Record) : Record := { r with words := r.words.erase 'f' }

end Record

/-- Every setting is what the last of the records that sets it says, or that of fresh options. -/
structure Modal.IsLatest (m : Modal) (o : Options) (records : List Record) : Prop where
  positioning : m.positioning = Record.latest Record.positioning? records .absolute
  feedrate : m.feedrate = Record.latest (·.tagNumber? "cts") records o.feedrate
  layerHeight : m.layerHeight = Record.latest (·.tagNumber? "layer_height") records o.layerHeight
  layerView : m.layerView = Record.latest Record.layerViewTag? records o.layerView
  totalLayers : m.totalLayers.toNat = Record.latest Record.totalLayers? records 0

/-- The segment of the record `r` behind `before`, where the tool stood at `p`: the settings are
those after the tags of `r`, and the move starts where its layer tag has led. -/
structure Segment.IsMoveOf (s : Segment) (o : Options) (before : List Record) (r : Record)
    (p : Position) : Prop where
  feedrate : s.feedrate =
    (r.number? 'f').getD (Record.latest (·.tagNumber? "cts") (before ++ [r]) o.feedrate)
  start : s.start = { p with
    z := if Record.latest Record.layerViewTag? (before ++ [r]) o.layerView then
        ((r.tags["layer"]?.bind Layer.index?).map fun index => Float.ofInt index *
          Record.latest (·.tagNumber? "layer_height") (before ++ [r]) o.layerHeight).getD p.z
      else p.z }
  stop : ∀ axis, s.stop.coordinate axis =
    match Record.latest Record.positioning? before .absolute with
    | .absolute => (r.number? (o.axes.source axis).toChar).getD (s.start.coordinate axis)
    | .relative => s.start.coordinate axis + (r.number? (o.axes.source axis).toChar).getD 0.0

namespace Record

variable (r : Record)

theorem number?_withoutFeed {letter : Char} (h : letter ≠ 'f') :
    r.withoutFeed.number? letter = r.number? letter := by
  have hget : (r.words.erase 'f')[letter]? = r.words[letter]? := by
    rw [Std.ExtTreeMap.getElem?_erase, if_neg]
    simpa using Ne.symm h
  rw [number?, number?, withoutFeed, hget]

end Record

namespace Modal

variable (m : Modal) (r : Record)

theorem positioningAfter_eq : m.positioningAfter r = r.positioning?.getD m.positioning := by
  unfold positioningAfter Record.positioning?
  cases r.command with
  | none => rfl
  | some command => cases command <;> rfl

theorem totalLayersOf?_toNat :
    (totalLayersOf? r.tags).map UInt32.toNat = r.totalLayers? := by
  unfold totalLayersOf? Record.totalLayers?
  rw [← totalLayersKeys]
  simp only
  cases totalLayersKeys.findSome? (fun key => r.tags[key]?) with
  | none => rfl
  | some value =>
    cases value with
    | text s => rfl
    | number x =>
      change (((some x).filter fun x => 0.0 ≤ x).map Float.toUInt32).map UInt32.toNat =
        if 0.0 ≤ x then some (Binary.saturated x) else none
      by_cases hx : 0.0 ≤ x
      · rw [Option.filter_some, if_pos hx, if_pos (decide_eq_true hx), ← Binary.toNat_toUInt32 hx]
        rfl
      · rw [Option.filter_some, if_neg hx, if_neg (by simpa using hx)]
        rfl

theorem toNat_step_totalLayers :
    (m.step r).1.totalLayers.toNat = r.totalLayers?.getD m.totalLayers.toNat := by
  rw [step_totalLayers, ← totalLayersOf?_toNat]
  cases totalLayersOf? r.tags <;> rfl

/-- What a record says of its own, over what was in force, is the latest of all records. -/
theorem processAll_eq_latest {α : Type} {f : Modal → α} {g : Record → Option α}
    (hstep : ∀ m r, f (m.step r).1 = (g r).getD (f m)) (m : Machine) (records : List Record) :
    f (m.processAll records).1.modal = Record.latest g records (f m.modal) := by
  induction records generalizing m with
  | nil => rfl
  | cons r rest ih =>
    rw [Machine.processAll_cons, Record.latest_cons, ← hstep]
    exact ih (m.process r).1

theorem isLatest_processAll (o : Options) (records : List Record) :
    ((Machine.ofOptions o).processAll records).1.modal.IsLatest o records := by
  constructor
  · exact processAll_eq_latest positioningAfter_eq _ records
  · exact processAll_eq_latest step_feedrate _ records
  · exact processAll_eq_latest step_layerHeight _ records
  · exact processAll_eq_latest step_layerView _ records
  · exact processAll_eq_latest (f := fun m => m.totalLayers.toNat) toNat_step_totalLayers _ records

section Feed

variable (m : Modal) (r : Record)

theorem target_withoutFeed (axis : Axis) : m.target r.withoutFeed axis = m.target r axis := by
  have hletter : ∀ letter : AxisLetter, letter.toChar ≠ 'f' := by
    intro letter
    cases letter <;> decide
  rw [target, target, r.number?_withoutFeed (hletter _)]

theorem stop_withoutFeed :
    (m.segment? r.withoutFeed).map Segment.stop = (m.segment? r).map Segment.stop := by
  have htarget : m.target r.withoutFeed = m.target r := funext (m.target_withoutFeed r)
  have hmove : r.withoutFeed.isMove = r.isMove := rfl
  rw [stop_segment?, stop_segment?, hmove, htarget]

theorem step_withoutFeed : (m.step r.withoutFeed).1 = (m.step r).1 := by
  let n := { m with lineCount := m.lineCount + 1 }.applyTags r
  change { n with
      positioning := n.positioningAfter r
      position := ((n.segment? r.withoutFeed).map Segment.stop).getD n.position } = (m.step r).1
  rw [stop_withoutFeed]
  rfl

theorem processAll_withoutFeed (m : Machine) (records : List Record) :
    (m.processAll (records.map Record.withoutFeed)).1 = (m.processAll records).1 := by
  induction records generalizing m with
  | nil => rfl
  | cons r rest ih =>
    have hprocess : (m.process r.withoutFeed).1 = (m.process r).1 := by
      simp only [Machine.process, step_withoutFeed]
    rw [List.map_cons, Machine.processAll_cons, Machine.processAll_cons, hprocess]
    exact ih (m.process r).1

end Feed

end Modal

namespace Machine

variable (o : Options) (before : List Record) (r : Record)

theorem processAll_concat (m : Machine) :
    (m.processAll (before ++ [r])).1 = ((m.processAll before).1.process r).1 := by
  rw [processAll_append, processAll_cons]
  rfl

/-- A move has the settings that the tags of its own record leave. -/
theorem isMoveOf_of_some {s : Segment}
    (h : (((ofOptions o).processAll before).1.process r).2 = some s) :
    s.IsMoveOf o before r ((ofOptions o).processAll before).1.modal.position := by
  have hbefore := Modal.isLatest_processAll o before
  have hafter := Modal.isLatest_processAll o (before ++ [r])
  have haxes : ((ofOptions o).processAll before).1.modal.axes = o.axes :=
    processAll_axes (ofOptions o) before
  rw [processAll_concat] at hafter
  let m := ((ofOptions o).processAll before).1.modal
  let n := { m with lineCount := m.lineCount + 1 }.applyTags r
  have hs : n.segment? r = some s := h
  obtain ⟨shape, -, rfl⟩ := Option.map_eq_some_iff.1 hs
  constructor
  · rw [← hafter.feedrate]
    rfl
  · rw [← hafter.layerView, ← hafter.layerHeight]
    change m.tagged r = _
    have hview : (m.applySettings r).layerView =
        (((ofOptions o).processAll before).1.process r).1.modal.layerView := rfl
    rw [Modal.tagged, Modal.layerZ?, hview]
    split <;> rfl
  · intro axis
    change Position.coordinate (.ofAxes (n.target r)) axis = _
    rw [Position.coordinate_ofAxes, ← hbefore.positioning, ← haxes]
    rfl

/-- After any records every setting is that of its last writer. A move takes its feedrate from its
own feed word, or else from the settings after its own tags, which also decide where it starts; the
feed words of the records before it have no influence on anything. -/
theorem settings_by_last_writers (o : Options) (records : List Record) :
    ((ofOptions o).processAll records).1.modal.IsLatest o records ∧
    ∀ before r after, records = before ++ r :: after →
      let m := ((ofOptions o).processAll before).1
      ((ofOptions o).processAll records).2 =
        ((ofOptions o).processAll before).2 ++ (m.process r).2.toList ++
          ((m.process r).1.processAll after).2 ∧
      (m.process r).2.isSome = r.isMove ∧
      (∀ s, (m.process r).2 = some s → s.IsMoveOf o before r m.modal.position) ∧
      ∀ other : List Record, other.map Record.withoutFeed = before.map Record.withoutFeed →
        ((ofOptions o).processAll other).1 = m := by
  refine ⟨Modal.isLatest_processAll o records, ?_⟩
  intro before r after hrecords m
  refine ⟨?_, m.modal.isSome_step r, ?_, ?_⟩
  · rw [hrecords, processAll_append, List.append_assoc]
    exact congrArg (_ ++ ·) (congrArg Prod.snd (Transducer.run_cons process m r after))
  · intro s hs
    exact isMoveOf_of_some o before r hs
  · intro other hother
    rw [← Modal.processAll_withoutFeed, hother, Modal.processAll_withoutFeed]

/-- The first key of two for the number of layers holds a text, a later number is too large, and a
move turns the layer view on for itself. -/
theorem settings_by_last_writers_mixed :
    let before : List Record :=
      [.ofLine "G91", .ofLine "G1 X1 F300 ;cts:42", .ofLine ";layer_height:0.5, cts:fast"]
    let r : Record := .ofLine "G1 Y2 Z1 ;enable_layer_view:1, layer:3"
    let after : List Record :=
      [.ofLine ";totallayers:4294967296.5", .ofLine ";total_layers:few, total_layer:7"]
    let m := ((ofOptions {}).processAll before).1
    ((ofOptions {}).processAll (before ++ r :: after)).1.modal.totalLayers.toNat = 4294967295 ∧
      ∃ s, (m.process r).2 = some s ∧ s.feedrate = 42 ∧ s.start = ⟨1, 0, 1.5⟩ ∧
        s.stop.coordinate .z = 2.5 := by
  intro before r after m
  obtain ⟨hlatest, hrecord⟩ := settings_by_last_writers {} (before ++ r :: after)
  obtain ⟨-, hsome, hmove, -⟩ := hrecord before r after rfl
  have hr : r.isMove = true := by decide +kernel
  obtain ⟨s, hs⟩ := Option.isSome_iff_exists.1 (hsome.trans hr)
  have hs' := hmove s hs
  refine ⟨?_, s, hs, ?_, ?_, ?_⟩
  · rw [hlatest.totalLayers]
    decide +kernel
  · rw [hs'.feedrate]
    decide +kernel
  · rw [hs'.start]
    decide +kernel
  · rw [hs'.stop, hs'.start]
    decide +kernel

end Machine

end Toolpath
