import Mathlib.Data.List.Forall2
import Toolpath.Machine.Directive
import Toolpath.Proofs.Moves
import Toolpath.Record.OfLine

/-!
# Axes are independent, and absolute moves forget

What happens along one axis depends on nothing but the commands and the words of its letter, and
along the last axis also on the tags and the layer settings. Once an absolute move has given the
coordinate, what came before has no influence either. So two machines that read an axis from the
same letter go on alike along it from such a move on, whatever else sets them apart.
-/

namespace Toolpath

/-- Two records that ask for the same along an axis that reads from `letter`. -/
structure Record.AgreesAlong (axis : Axis) (letter : AxisLetter) (r r' : Record) : Prop where
  command : r'.command = r.command
  word : r'.words[letter.toChar]? = r.words[letter.toChar]?
  tags : axis = .z → r'.tags = r.tags

instance (axis : Axis) (letter : AxisLetter) (r r' : Record) :
    Decidable (r.AgreesAlong axis letter r') :=
  decidable_of_iff (r'.command = r.command ∧
      r'.words[letter.toChar]? = r.words[letter.toChar]? ∧ (axis = .z → r'.tags = r.tags))
    ⟨fun ⟨hcommand, hword, htags⟩ => ⟨hcommand, hword, htags⟩,
      fun ⟨hcommand, hword, htags⟩ => ⟨hcommand, hword, htags⟩⟩

def Segment.endsAlong (axis : Axis) (s : Segment) : Float × Float :=
  (s.start.coordinate axis, s.stop.coordinate axis)

namespace Modal

/-- Modal settings that do not differ in what an axis reads. -/
structure SharesAxis (axis : Axis) (m m' : Modal) : Prop where
  source : m'.axes.source axis = m.axes.source axis
  positioning : m'.positioning = m.positioning
  layers : axis = .z → m'.layerHeight = m.layerHeight ∧ m'.layerView = m.layerView

/-- The same, with the tool at the same coordinate of the axis. -/
structure AgreesAlong (axis : Axis) (m m' : Modal) : Prop extends SharesAxis axis m m' where
  coordinate : m'.position.coordinate axis = m.position.coordinate axis

end Modal

variable {axis : Axis} {letter : AxisLetter} {m m' : Modal} {r r' : Record}

namespace Record.AgreesAlong

theorem number?_eq (h : r.AgreesAlong axis letter r') :
    r'.number? letter.toChar = r.number? letter.toChar := congrArg (Option.bind · _) h.word

theorem isMove_eq (h : r.AgreesAlong axis letter r') : r'.isMove = r.isMove :=
  congrArg (Option.any _) h.command

end Record.AgreesAlong

namespace Modal

/-- Where a record leaves the tool on one axis. -/
theorem coordinate_step (m : Modal) (r : Record) (axis : Axis) :
    (m.step r).1.position.coordinate axis =
      if r.isMove then { m with position := m.tagged r }.target r axis
      else (m.tagged r).coordinate axis := by
  let n := { m with lineCount := m.lineCount + 1 }.applyTags r
  change (((n.segment? r).map Segment.stop).getD (m.tagged r)).coordinate axis = _
  rw [stop_segment?]
  cases r.isMove with
  | true => exact Position.coordinate_ofAxes _ axis
  | false => rfl

theorem SharesAxis.step (h : m.SharesAxis axis m') (hr : r.AgreesAlong axis letter r') :
    (m.step r).1.SharesAxis axis (m'.step r').1 := by
  refine ⟨h.source, ?_, ?_⟩
  · rw [step_positioning, step_positioning, positioningAfter, positioningAfter, hr.command,
      h.positioning]
  · intro hz
    obtain ⟨hheight, hview⟩ := h.layers hz
    rw [step_layerHeight, step_layerHeight, step_layerView, step_layerView, hheight, hview,
      Record.tagNumber?, Record.tagNumber?, hr.tags hz]
    exact ⟨rfl, rfl⟩

/-- Tags move the tool along the last axis only, to where the layer settings and they say. -/
theorem AgreesAlong.tagged (h : m.AgreesAlong axis m') (hr : r.AgreesAlong axis letter r') :
    (m'.tagged r').coordinate axis = (m.tagged r).coordinate axis := by
  cases axis with
  | x => exact h.coordinate
  | y => exact h.coordinate
  | z =>
    obtain ⟨hheight, hview⟩ := (h.toSharesAxis.step hr).layers rfl
    have hheight : (m'.applySettings r').layerHeight = (m.applySettings r).layerHeight := hheight
    have hview : (m'.applySettings r').layerView = (m.applySettings r).layerView := hview
    have hz : m'.position.z = m.position.z := h.coordinate
    change ((m'.applySettings r').layerZ? r').getD m'.position.z =
      ((m.applySettings r).layerZ? r).getD m.position.z
    rw [layerZ?, layerZ?, hview, hheight, hr.tags rfl, hz]

/-- Moves that start at the same coordinate end at the same one. -/
theorem SharesAxis.target (h : m.SharesAxis axis m')
    (hr : r.AgreesAlong axis (m.axes.source axis) r')
    (hstart : (m'.tagged r').coordinate axis = (m.tagged r).coordinate axis) :
    { m' with position := m'.tagged r' }.target r' axis =
      { m with position := m.tagged r }.target r axis := by
  simp only [Modal.target, h.source, h.positioning, hr.number?_eq, hstart]

/-- An absolute move with a word for the axis ends there, wherever it started. -/
theorem target_of_absolute {x : Float} (habsolute : m.positioning = .absolute)
    (hword : r.number? (m.axes.source axis).toChar = some x) :
    { m with position := m.tagged r }.target r axis = x := by
  simp only [Modal.target, habsolute, hword, Option.getD_some]

/-- One record keeps two machines together along an axis. -/
theorem AgreesAlong.step (h : m.AgreesAlong axis m')
    (hr : r.AgreesAlong axis (m.axes.source axis) r') :
    (m.step r).1.AgreesAlong axis (m'.step r').1 := by
  refine ⟨h.toSharesAxis.step hr, ?_⟩
  rw [coordinate_step, coordinate_step, hr.isMove_eq, h.tagged hr,
    h.toSharesAxis.target hr (h.tagged hr)]

/-- An absolute move with a word for the axis brings two machines together. -/
theorem SharesAxis.agreesAlong_step {x : Float} (h : m.SharesAxis axis m')
    (hr : r.AgreesAlong axis (m.axes.source axis) r') (habsolute : m.positioning = .absolute)
    (hmove : r.isMove = true) (hword : r.number? (m.axes.source axis).toChar = some x) :
    (m.step r).1.AgreesAlong axis (m'.step r').1 := by
  refine ⟨h.step hr, ?_⟩
  have hword' : r'.number? (m'.axes.source axis).toChar = some x := by
    rw [h.source, hr.number?_eq, hword]
  rw [coordinate_step, coordinate_step, hr.isMove_eq, if_pos hmove, if_pos hmove,
    target_of_absolute habsolute hword, target_of_absolute (h.positioning.trans habsolute) hword']

/-- Records that agree along an axis draw the same along it where the tool does. -/
theorem AgreesAlong.map_ends_step (h : m.AgreesAlong axis m')
    (hr : r.AgreesAlong axis (m.axes.source axis) r') :
    (m'.step r').2.map (Segment.endsAlong axis) = (m.step r).2.map (Segment.endsAlong axis) := by
  let ends (p q : Position) : Float × Float := (p.coordinate axis, q.coordinate axis)
  refine (m'.map_ends_step r' ends).trans (.trans ?_ (m.map_ends_step r ends).symm)
  rw [hr.isMove_eq]
  simp only [ends, h.tagged hr, (h.step hr).coordinate]

end Modal

namespace Machine

/-- A move draws one segment, which ends where the move leaves the tool. -/
theorem exists_processAll_cons (m : Machine) {r : Record} (hmove : r.isMove = true)
    (rest : List Record) :
    ∃ s : Segment, s.stop = (m.process r).1.modal.position ∧
      (m.processAll (r :: rest)).2 = s :: ((m.process r).1.processAll rest).2 := by
  obtain ⟨s, hs⟩ := Option.isSome_iff_exists.1 ((m.modal.isSome_step r).trans hmove)
  refine ⟨s, (Modal.step_of_some hs).2.1, ?_⟩
  rw [processAll_cons, process_snd, hs]
  rfl

variable {m m' : Machine}

/-- Records that agree along an axis take two machines that do so along the same course. -/
theorem processAll_agreesAlong (h : m.modal.AgreesAlong axis m'.modal)
    (hletter : m.modal.axes.source axis = letter) {records records' : List Record}
    (hagree : List.Forall₂ (Record.AgreesAlong axis letter) records records') :
    (m'.course records').map (Position.coordinate · axis) =
        (m.course records).map (Position.coordinate · axis) ∧
      (m'.processAll records').2.map (Segment.endsAlong axis) =
        (m.processAll records).2.map (Segment.endsAlong axis) := by
  induction hagree generalizing m m' with
  | nil => exact ⟨rfl, rfl⟩
  | @cons r r' rest rest' hr _ ih =>
    subst hletter
    have hnext : (m.process r).1.modal.AgreesAlong axis (m'.process r').1.modal := h.step hr
    obtain ⟨hcourse, hends⟩ := ih hnext rfl
    have hfirst := congrArg Option.toList (h.map_ends_step hr)
    rw [Option.toList_map, Option.toList_map] at hfirst
    rw [processAll_cons, processAll_cons, List.map_append, List.map_append, hends]
    exact ⟨congrArg₂ List.cons hnext.coordinate hcourse, congrArg (· ++ _) hfirst⟩

/-- Two machines may differ in all but the letter of an axis, and have different records behind
them. From an absolute move to the same coordinate on, records that agree along the axis leave them
at the same coordinates, and every segment ends at the same one, and starts there if it is not that
of the move itself. Along the last axis this asks for the same tags and layer settings. -/
theorem absolute_move_forgets {before before' rest rest' : List Record} {r r' : Record} {x : Float}
    (hsource : m'.modal.axes.source axis = m.modal.axes.source axis)
    (habsolute : (m.processAll before).1.modal.positioning = .absolute)
    (habsolute' : (m'.processAll before').1.modal.positioning = .absolute)
    (hlayers : axis = .z →
      (m'.processAll before').1.modal.layerHeight = (m.processAll before).1.modal.layerHeight ∧
      (m'.processAll before').1.modal.layerView = (m.processAll before).1.modal.layerView)
    (hmove : r.isMove = true) (hword : r.number? (m.modal.axes.source axis).toChar = some x)
    (hagree : List.Forall₂ (Record.AgreesAlong axis (m.modal.axes.source axis))
      (r :: rest) (r' :: rest')) :
    let first := (m.processAll before).1
    let first' := (m'.processAll before').1
    let late := first.processAll (r :: rest)
    let late' := first'.processAll (r' :: rest')
    (late'.1.trace.toList.drop first'.trace.size).map (Position.coordinate · axis) =
        (late.1.trace.toList.drop first.trace.size).map (Position.coordinate · axis) ∧
      late'.2.map (fun s => s.stop.coordinate axis) = late.2.map (fun s => s.stop.coordinate axis) ∧
      late'.2.tail.map (fun s => s.start.coordinate axis) =
        late.2.tail.map (fun s => s.start.coordinate axis) := by
  intro first first' late late'
  have haxes : first.modal.axes.source axis = m.modal.axes.source axis := by
    rw [processAll_axes]
  have haxes' : first'.modal.axes.source axis = first.modal.axes.source axis := by
    rw [processAll_axes, processAll_axes, hsource]
  have hshares : first.modal.SharesAxis axis first'.modal :=
    ⟨haxes', habsolute'.trans habsolute.symm, hlayers⟩
  rw [← haxes] at hword hagree
  obtain ⟨hr, hrest⟩ := List.forall₂_cons.1 hagree
  have hnext : (first.process r).1.modal.AgreesAlong axis (first'.process r').1.modal :=
    hshares.agreesAlong_step hr habsolute hmove hword
  obtain ⟨hcourse, hends⟩ := processAll_agreesAlong hnext rfl hrest
  obtain ⟨s, hstop, (hlate : late.2 = _)⟩ := first.exists_processAll_cons hmove rest
  obtain ⟨s', hstop', (hlate' : late'.2 = _)⟩ :=
    first'.exists_processAll_cons (hr.isMove_eq.trans hmove) rest'
  refine ⟨?_, ?_, ?_⟩
  · rw [drop_processAll_trace, drop_processAll_trace]
    exact congrArg₂ List.cons hnext.coordinate hcourse
  · have hfirst : s'.stop.coordinate axis = s.stop.coordinate axis := by
      rw [hstop, hstop', hnext.coordinate]
    have hstops := congrArg (List.map Prod.snd) hends
    rw [List.map_map, List.map_map] at hstops
    rw [hlate, hlate']
    exact congrArg₂ List.cons hfirst hstops
  · have hstarts := congrArg (List.map Prod.fst) hends
    rw [List.map_map, List.map_map] at hstarts
    rw [hlate, hlate']
    exact hstarts

/-- Two machines with nothing in common but the letter of the last axis and the layer settings. The
other axes read different letters, one of them that of the last axis too. -/
theorem absolute_move_forgets_for_layers :
    let m : Machine := .ofOptions { axes := ⟨.e, .y, .e⟩, layerView := true }
    let m' : Machine := (Machine.ofOptions { axes := ⟨.a, .b, .e⟩ }).follow (.layerView true)
    let before : List Record := [.ofLine "G91", .ofLine "G1 Y5 E9", .ofLine "G90"]
    let before' : List Record := [.ofLine ";cts:7"]
    let r : Record := .ofLine "G1 E2 Y8"
    let r' : Record := .ofLine "G1 A4 E2 F9"
    let rest : List Record := [.ofLine "G91 Y1", .ofLine "G1 E1 ;layer:5", .ofLine "G2 X1 I7"]
    let rest' : List Record := [.ofLine "G91", .ofLine "G1 E1 ;layer:5", .ofLine "G2 A3 J1"]
    let late := (m.processAll before).1.processAll (r :: rest)
    let late' := (m'.processAll before').1.processAll (r' :: rest')
    late'.2.map (fun s => s.stop.coordinate .z) = [2, 1.5, 1.5] ∧
      late'.2.tail.map (fun s => s.start.coordinate .z) =
        late.2.tail.map (fun s => s.start.coordinate .z) := by
  intro m m' before before' r r' rest rest' late late'
  have hagree : List.Forall₂ (Record.AgreesAlong .z .e) (r :: rest) (r' :: rest') := by
    decide +kernel
  obtain ⟨-, hstops, hstarts⟩ := @absolute_move_forgets .z m m' before before' rest rest' r r' 2
    rfl (by decide +kernel) (by decide +kernel) (fun _ => by decide +kernel) (by decide +kernel)
    (by decide +kernel) hagree
  refine ⟨hstops.trans ?_, hstarts⟩
  decide +kernel

end Machine

end Toolpath
