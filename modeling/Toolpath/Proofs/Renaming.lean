import Toolpath.Machine

/-!
# Axes as renamed words

An axis that reads another letter reads it as if the word were written with the axis's own letter.
So a machine draws from records what a machine with plain axes draws from the renamed ones. The
letters of several axes may be the same, and may be those of an arc's centre, which keep their
words.
-/

namespace Toolpath

namespace Record

/-- The record in which every axis has, under its own letter, the word that the axes read for it.
All other words stay as they are. -/
def renamed (axes : AxisMap) (r : Record) : Record :=
  { r with
    words := ((r.words.alter 'x' fun _ => r.words[axes.x.toChar]?).alter 'y'
      fun _ => r.words[axes.y.toChar]?).alter 'z' fun _ => r.words[axes.z.toChar]? }

variable (axes : AxisMap) (r : Record)

theorem getElem?_renamed (letter : Char) :
    (r.renamed axes).words[letter]? =
      if letter = 'z' then r.words[axes.z.toChar]?
      else if letter = 'y' then r.words[axes.y.toChar]?
      else if letter = 'x' then r.words[axes.x.toChar]?
      else r.words[letter]? := by
  rw [renamed]
  simp only [Std.ExtTreeMap.getElem?_alter, Std.compare_eq_iff_eq, @eq_comm Char _ letter]

theorem number?_renamed_axis (axis : Axis) :
    (r.renamed axes).number? (AxisMap.identity.source axis).toChar =
      r.number? (axes.source axis).toChar := by
  rw [number?, number?, getElem?_renamed]
  cases axis <;> rfl

theorem number?_renamed_of_ne {letter : Char} (hx : letter ≠ 'x') (hy : letter ≠ 'y')
    (hz : letter ≠ 'z') : (r.renamed axes).number? letter = r.number? letter := by
  rw [number?, number?, getElem?_renamed, if_neg hz, if_neg hy, if_neg hx]

end Record

def Modal.plain (m : Modal) : Modal := { m with axes := .identity }

def Machine.plain (m : Machine) : Machine :=
  { m with options := { m.options with axes := .identity }, modal := m.modal.plain }

namespace Modal

variable (m : Modal) (r : Record)

theorem target_plain (axis : Axis) :
    m.plain.target (r.renamed m.axes) axis = m.target r axis := by
  have hword : (r.renamed m.axes).number? (m.plain.axes.source axis).toChar =
      r.number? (m.axes.source axis).toChar := r.number?_renamed_axis m.axes axis
  rw [target, target, hword]
  rfl

theorem segment?_plain : m.plain.segment? (r.renamed m.axes) = m.segment? r := by
  have htarget : m.plain.target (r.renamed m.axes) = m.target r := funext (m.target_plain r)
  -- The centre of an arc is read from its own letters, whatever letters the axes read.
  have hi : (r.renamed m.axes).number? 'i' = r.number? 'i' :=
    r.number?_renamed_of_ne m.axes (by decide) (by decide) (by decide)
  have hj : (r.renamed m.axes).number? 'j' = r.number? 'j' :=
    r.number?_renamed_of_ne m.axes (by decide) (by decide) (by decide)
  have hf : (r.renamed m.axes).number? 'f' = r.number? 'f' :=
    r.number?_renamed_of_ne m.axes (by decide) (by decide) (by decide)
  have hshape : m.plain.shape? (r.renamed m.axes) = m.shape? r := by
    rw [shape?, shape?, hi, hj]
    rfl
  rw [segment?, segment?, hshape, htarget, hf]
  rfl

/-- One record: renamed, it does with plain axes what it does with these. -/
theorem step_plain : m.plain.step (r.renamed m.axes) = ((m.step r).1.plain, (m.step r).2) := by
  let n := { m with lineCount := m.lineCount + 1 }.applyTags r
  have hsegment : n.plain.segment? (r.renamed m.axes) = n.segment? r := n.segment?_plain r
  change ({ n.plain with
      positioning := n.positioningAfter r
      position := ((n.plain.segment? (r.renamed m.axes)).map Segment.stop).getD n.position },
    n.plain.segment? (r.renamed m.axes)) = _
  rw [hsegment]
  rfl

end Modal

namespace Machine

theorem process_plain (m : Machine) (r : Record) :
    m.plain.process (r.renamed m.modal.axes) = ((m.process r).1.plain, (m.process r).2) := by
  have hstep := m.modal.step_plain r
  have hmodal : m.plain.modal = m.modal.plain := rfl
  rw [process, hmodal, hstep]
  rfl

theorem processAll_plain (m : Machine) (records : List Record) :
    m.plain.processAll (records.map (Record.renamed m.modal.axes)) =
      ((m.processAll records).1.plain, (m.processAll records).2) := by
  induction records generalizing m with
  | nil => rfl
  | cons r rest ih =>
    have hrest : (m.process r).1.plain.processAll (rest.map (Record.renamed m.modal.axes)) =
        (((m.process r).1.processAll rest).1.plain, ((m.process r).1.processAll rest).2) :=
      ih (m.process r).1
    rw [List.map_cons, processAll_cons, processAll_cons, m.process_plain r, hrest]

/-- Reading the axes from other letters is renaming the words of these letters: the segments and the
trace are the same, and all of the modal settings but the axes. -/
theorem axes_rename_words (o : Options) (records : List Record) :
    let mapped := (ofOptions o).processAll records
    let plain := (ofOptions { o with axes := .identity }).processAll
      (records.map (Record.renamed o.axes))
    plain.2 = mapped.2 ∧ plain.1.trace = mapped.1.trace ∧
      plain.1.modal = { mapped.1.modal with axes := .identity } := by
  intro mapped plain
  have h : plain = (mapped.1.plain, mapped.2) := (ofOptions o).processAll_plain records
  rw [h]
  exact ⟨rfl, rfl, rfl⟩

end Machine

end Toolpath
