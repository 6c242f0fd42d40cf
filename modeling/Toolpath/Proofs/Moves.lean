import Toolpath.Machine

/-!
# What one record draws

A record draws a segment if and only if its command is a move. The segment starts where the tags of
the record leave the tool, and ends where the record leaves it. Any other record moves the tool only
by a layer tag. Where the records leave the tool, one after the other, is their course, which the
trace grows by.
-/

namespace Toolpath

def Command.isMove : Command → Bool
  | rapid | linear | arc _ => true
  | _ => false

namespace Record

def isMove (r : Record) : Bool := r.command.any Command.isMove

/-- Whether a record asks for this shape, by the code of its command. -/
def Draws (r : Record) : Shape → Prop
  | .line => r.command = some (.ofCode "G0") ∨ r.command = some (.ofCode "G1")
  | .arc _ _ .clockwise => r.command = some (.ofCode "G2")
  | .arc _ _ .counterclockwise => r.command = some (.ofCode "G3")

end Record

namespace Modal

variable (m : Modal) (r : Record)

theorem isSome_shape? : (m.shape? r).isSome = r.command.any Command.isMove := by
  unfold shape?
  cases r.command with
  | none => rfl
  | some command => cases command <;> rfl

theorem draws_of_shape? {shape : Shape} (h : m.shape? r = some shape) : r.Draws shape := by
  unfold shape? at h
  split at h
  · rename_i hcommand
    cases h
    exact .inl hcommand
  · rename_i hcommand
    cases h
    exact .inr hcommand
  · rename_i turn hcommand
    cases h
    cases turn with
    | clockwise => exact hcommand
    | counterclockwise => exact hcommand
  · cases h

/-- Where the tags of a record leave the tool. -/
def tagged : Position :=
  { m.position with z := ((m.applySettings r).layerZ? r).getD m.position.z }

theorem isSome_step : (m.step r).2.isSome = r.isMove := by
  change (((_ : Modal).shape? r).map _).isSome = _
  rw [Option.isSome_map]
  exact isSome_shape? _ r

theorem step_eq_none (h : r.isMove = false) : (m.step r).2 = none := by
  rw [← Option.isNone_iff_eq_none, ← Option.isSome_eq_false_iff, isSome_step, h]

theorem stop_segment? :
    (m.segment? r).map Segment.stop = if r.isMove then some (.ofAxes (m.target r)) else none := by
  have hsome := m.isSome_shape? r
  rw [← Record.isMove] at hsome
  cases hshape : m.shape? r with
  | none =>
    rw [hshape] at hsome
    rw [segment?, hshape, ← hsome]
    rfl
  | some shape =>
    rw [hshape] at hsome
    rw [segment?, hshape, ← hsome]
    rfl

theorem step_position_of_none (h : (m.step r).2 = none) : (m.step r).1.position = m.tagged r := by
  change ((m.step r).2.map Segment.stop).getD (m.tagged r) = _
  rw [h]
  rfl

variable {m r}

theorem step_of_some {s : Segment} (h : (m.step r).2 = some s) :
    s.start = m.tagged r ∧ s.stop = (m.step r).1.position ∧ s.sourceLine = m.lineCount + 1 ∧
      r.Draws s.shape := by
  have hstop : s.stop = (m.step r).1.position := by
    change _ = ((m.step r).2.map Segment.stop).getD (m.tagged r)
    rw [h]
    rfl
  obtain ⟨shape, hshape, rfl⟩ := Option.map_eq_some_iff.1 h
  exact ⟨rfl, hstop, rfl, draws_of_shape? _ r hshape⟩

/-- The start and the stop of what a record draws, as far as `f` looks at them. -/
theorem map_ends_step {α : Type} (m : Modal) (r : Record) (f : Position → Position → α) :
    (m.step r).2.map (fun s => f s.start s.stop) =
      if r.isMove then some (f (m.tagged r) (m.step r).1.position) else none := by
  have hsome := m.isSome_step r
  cases h : (m.step r).2 with
  | none =>
    rw [h] at hsome
    rw [← hsome]
    rfl
  | some s =>
    obtain ⟨hstart, hstop, -, -⟩ := step_of_some h
    rw [h] at hsome
    rw [← hsome, Option.map_some, hstart, hstop]
    rfl

end Modal

namespace Machine

/-- The positions that records add to the trace. -/
def course (m : Machine) : List Record → List Position
  | [] => []
  | r :: rest => (m.process r).1.modal.position :: (m.process r).1.course rest

theorem processAll_trace (m : Machine) (records : List Record) :
    (m.processAll records).1.trace.toList = m.trace.toList ++ m.course records := by
  induction records generalizing m with
  | nil => exact (List.append_nil _).symm
  | cons r rest ih =>
    rw [processAll_cons, ih, process_trace, Array.toList_push, List.append_assoc]
    rfl

theorem drop_processAll_trace (m : Machine) (records : List Record) :
    (m.processAll records).1.trace.toList.drop m.trace.size = m.course records := by
  rw [processAll_trace, ← Array.length_toList, List.drop_left]

end Machine

end Toolpath
