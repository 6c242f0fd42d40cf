import Toolpath.Machine.Operation
import Toolpath.Proofs.Directives
import Toolpath.Proofs.Moves

/-!
# The toolpath is connected

Whatever is done with a machine in between, a segment starts in the plane where the segment before
it ended, and also at that height unless a layer tag was in effect since. The visits to a machine
form a path: each starts where the one before it ended, and none but a move or a layer tag leads
anywhere else.
-/

namespace Toolpath

namespace Visit

def segment? (v : Visit) : Option Segment := (v.modal.step v.record).2

def before (v : Visit) : Position := v.modal.position

def after (v : Visit) : Position := (v.modal.step v.record).1.position

/-- Whether layer tags count, the tag of the same record that says so included. -/
def layerView (v : Visit) : Bool :=
  (v.record.tags["enable_layer_view"]?.map TagValue.isTruthy).getD v.modal.layerView

def layerHeight (v : Visit) : Float :=
  (v.record.tagNumber? "layer_height").getD v.modal.layerHeight

/-- The number of a layer tag in effect. -/
def layerIndex? (v : Visit) : Option Int :=
  if v.layerView then v.record.tags["layer"]?.bind Layer.index? else none

def layerZ? (v : Visit) : Option Float :=
  v.layerIndex?.map fun index => Float.ofInt index * v.layerHeight

end Visit

/-- The segment starts at `p`, or above or below it where the last layer tag in effect has led. -/
structure Segment.Continues (s : Segment) (p : Position) (visits : List Visit) : Prop where
  x : s.start.x = p.x
  y : s.start.y = p.y
  z : s.start.z = (visits.filterMap Visit.layerZ?).getLastD p.z

namespace Visit

def IsPath (p : Position) : List Visit → Prop
  | [] => True
  | v :: rest => v.before = p ∧ IsPath v.after rest

def endOf (p : Position) : List Visit → Position
  | [] => p
  | v :: rest => endOf v.after rest

variable {p : Position} {v : Visit} {since : List Visit}

theorem tagged_eq (v : Visit) :
    v.modal.tagged v.record = { v.before with z := v.layerZ?.getD v.before.z } := by
  have hz : (v.modal.applySettings v.record).layerZ? v.record = v.layerZ? := by
    unfold Modal.layerZ? layerZ? layerIndex?
    change (if v.layerView = true then _ else _) = _
    split <;> rfl
  rw [Modal.tagged, hz]
  rfl

theorem after_of_none (h : v.segment? = none) :
    v.after = { v.before with z := v.layerZ?.getD v.before.z } := by
  rw [← tagged_eq]
  exact Modal.step_position_of_none _ _ h

theorem isPath_append (first second : List Visit) :
    IsPath p (first ++ second) ↔ IsPath p first ∧ IsPath (endOf p first) second := by
  induction first generalizing p with
  | nil => exact ⟨fun h => ⟨trivial, h⟩, And.right⟩
  | cons v rest ih =>
    rw [List.cons_append, IsPath, IsPath, ih, and_assoc]
    rfl

/-- Without a segment, only layer tags in effect lead anywhere, and the last of them counts. -/
theorem endOf_of_none (hpath : IsPath p since) (hnone : ∀ w ∈ since, w.segment? = none) :
    endOf p since = { p with z := (since.filterMap layerZ?).getLastD p.z } := by
  induction since generalizing p with
  | nil => rfl
  | cons v rest ih =>
    obtain ⟨hbefore, hrest⟩ := hpath
    have hafter : v.after = { p with z := v.layerZ?.getD p.z } := by
      rw [after_of_none (hnone v List.mem_cons_self), hbefore]
    rw [endOf, ih hrest fun w hw => hnone w (List.mem_cons_of_mem _ hw), hafter]
    cases hz : v.layerZ? with
    | none => rw [List.filterMap_cons_none hz, Option.getD_none]
    | some z => rw [List.filterMap_cons_some hz, List.getLastD_cons, Option.getD_some]

theorem continues_of_isPath {s : Segment} (hpath : IsPath p (since ++ [v]))
    (hnone : ∀ w ∈ since, w.segment? = none) (hs : v.segment? = some s) :
    s.Continues p (since ++ [v]) := by
  obtain ⟨hsince, hbefore, -⟩ := (isPath_append _ _).1 hpath
  have hend := endOf_of_none hsince hnone
  have hstart : s.start = { v.before with z := v.layerZ?.getD v.before.z } := by
    rw [← tagged_eq]
    exact (Modal.step_of_some hs).1
  rw [hbefore, hend] at hstart
  constructor
  · rw [hstart]
  · rw [hstart]
  · rw [hstart, List.filterMap_append]
    cases hz : v.layerZ? with
    | none =>
      rw [List.filterMap_cons_none hz, List.filterMap_nil, List.append_nil]
      rfl
    | some z =>
      rw [List.filterMap_cons_some hz, List.filterMap_nil, List.getLastD_concat]
      rfl

end Visit

namespace Machine

theorem follow_position (m : Machine) (d : Directive) :
    (m.follow d).modal.position = m.modal.position := by
  cases d <;> rfl

theorem visitsOfRecords_path (m : Machine) (records : List Record) :
    Visit.IsPath m.modal.position (m.visitsOfRecords records) ∧
    Visit.endOf m.modal.position (m.visitsOfRecords records) =
      (m.processAll records).1.modal.position ∧
    (m.processAll records).2 = (m.visitsOfRecords records).filterMap Visit.segment? := by
  induction records generalizing m with
  | nil => exact ⟨trivial, rfl, rfl⟩
  | cons r rest ih =>
    obtain ⟨hpath, hend, hsegments⟩ := ih (m.process r).1
    rw [processAll_cons]
    refine ⟨⟨rfl, hpath⟩, hend, ?_⟩
    rw [visitsOfRecords]
    cases hr : Visit.segment? ⟨m.modal, r⟩ with
    | none =>
      rw [List.filterMap_cons_none hr, ← hsegments]
      exact congrArg (Option.toList · ++ _) hr
    | some s =>
      rw [List.filterMap_cons_some hr, ← hsegments]
      exact congrArg (Option.toList · ++ _) hr

/-- One operation: its visits go on from the tool, to where it leaves the tool. -/
theorem visitsOf_path (m : Machine) (op : Operation) :
    Visit.IsPath m.modal.position (m.visitsOf op) ∧
    Visit.endOf m.modal.position (m.visitsOf op) = (m.perform op).1.modal.position ∧
    (m.perform op).2 = (m.visitsOf op).filterMap Visit.segment? := by
  cases op with
  | process r =>
    have h := m.visitsOfRecords_path [r]
    rw [processAll_cons, processAll, Transducer.run_nil, List.append_nil] at h
    exact h
  | processAll records => exact m.visitsOfRecords_path records
  | applyDirectives r =>
    refine ⟨trivial, ?_, rfl⟩
    rw [perform, applyDirectives_fst]
    rfl
  | follow d => exact ⟨trivial, (m.follow_position d).symm, rfl⟩
  | takeTrace => exact ⟨trivial, rfl, rfl⟩

/-- All operations: their visits form one path, which draws their segments. -/
theorem visits_path (m : Machine) (operations : List Operation) :
    Visit.IsPath m.modal.position (m.visits operations) ∧
    (m.performAll operations).2 = (m.visits operations).filterMap Visit.segment? := by
  induction operations generalizing m with
  | nil => exact ⟨trivial, rfl⟩
  | cons op rest ih =>
    obtain ⟨hpath, hend, hsegments⟩ := m.visitsOf_path op
    obtain ⟨hlater, hrest⟩ := ih (m.perform op).1
    rw [visits, Visit.isPath_append, hend, List.filterMap_append, ← hsegments, ← hrest]
    exact ⟨⟨hpath, hlater⟩, rfl⟩

/-- Every segment continues the one before it, or starts from the origin if there is none. Between
two visits the tool stays where it is, and a visit without a move leads at most to a layer. -/
theorem toolpath_connected (m : Machine) (operations : List Operation) :
    let visits := m.reset.visits operations
    (m.reset.performAll operations).2 = visits.filterMap Visit.segment? ∧
    (∀ since v later s, visits = since ++ v :: later → (∀ w ∈ since, w.segment? = none) →
      v.segment? = some s → s.Continues .origin (since ++ [v])) ∧
    (∀ earlier u since v later p s, visits = earlier ++ u :: (since ++ v :: later) →
      u.segment? = some p → (∀ w ∈ since, w.segment? = none) → v.segment? = some s →
      s.Continues p.stop (since ++ [v])) ∧
    (∀ earlier u v later, visits = earlier ++ u :: v :: later → v.before = u.after) ∧
    (∀ v ∈ visits, v.record.isMove = false →
      v.after.x = v.before.x ∧ v.after.y = v.before.y ∧
        (v.layerIndex? = none → v.after.z = v.before.z)) := by
  intro visits
  obtain ⟨hpath, hsegments⟩ := m.reset.visits_path operations
  have hpath : Visit.IsPath .origin visits := hpath
  refine ⟨hsegments, ?_, ?_, ?_, ?_⟩
  · intro since v later s hvisits hnone hs
    rw [hvisits, ← List.singleton_append, ← List.append_assoc, Visit.isPath_append] at hpath
    exact Visit.continues_of_isPath hpath.1 hnone hs
  · intro earlier u since v later p s hvisits hp hnone hs
    rw [hvisits, Visit.isPath_append] at hpath
    have hsince : Visit.IsPath u.after (since ++ v :: later) := hpath.2.2
    have hstop : p.stop = u.after := (Modal.step_of_some hp).2.1
    rw [← List.singleton_append, ← List.append_assoc, Visit.isPath_append] at hsince
    rw [hstop]
    exact Visit.continues_of_isPath hsince.1 hnone hs
  · intro earlier u v later hvisits
    rw [hvisits, Visit.isPath_append] at hpath
    exact hpath.2.2.1
  · intro v _ hmove
    have hnone : v.segment? = none := by
      rw [← Option.isNone_iff_eq_none, ← Option.isSome_eq_false_iff, Visit.segment?,
        Modal.isSome_step, hmove]
    rw [Visit.after_of_none hnone]
    refine ⟨rfl, rfl, ?_⟩
    intro hindex
    rw [Visit.layerZ?, hindex]
    rfl

/-- A layer tag, a new height for its layer and an emptied trace come between two moves. -/
theorem toolpath_connected_over_layer :
    let m : Machine := .ofOptions { layerView := true }
    let first : Record := .ofLine "G1 X4 Z7"
    let layer : Record := .ofLine ";layer:3"
    let second : Record := .ofLine "G2 Y1 J0.5"
    let operations : List Operation :=
      [.process first, .follow (.layerHeight 0.5), .process layer, .takeTrace, .processAll [second]]
    ∃ p s, (m.reset.performAll operations).2 = [p, s] ∧ p.stop = ⟨4, 0, 7⟩ ∧
      s.start.x = p.stop.x ∧ s.start.y = p.stop.y ∧ s.start.z = 1.5 := by
  intro m first layer second operations
  obtain ⟨hsegments, -, hcontinues, -, -⟩ := toolpath_connected m operations
  let u : Visit := ⟨m.reset.modal, first⟩
  let high := (m.reset.process first).1.follow (.layerHeight 0.5)
  let w : Visit := ⟨high.modal, layer⟩
  let v : Visit := ⟨(high.process layer).1.takeTrace.1.modal, second⟩
  -- For arbitrary records, as otherwise the lines would be read to see this.
  have hany (r₁ r₂ r₃ : Record) :
      let high := (m.reset.process r₁).1.follow (.layerHeight 0.5)
      m.reset.visits [.process r₁, .follow (.layerHeight 0.5), .process r₂, .takeTrace,
          .processAll [r₃]] =
        [⟨m.reset.modal, r₁⟩, ⟨high.modal, r₂⟩, ⟨(high.process r₂).1.takeTrace.1.modal, r₃⟩] := rfl
  have hvisits : m.reset.visits operations = [] ++ u :: ([w] ++ v :: []) :=
    hany first layer second
  have hmove : u.segment?.isSome = true ∧ v.segment?.isSome = true := by decide +kernel
  obtain ⟨p, hp⟩ := Option.isSome_iff_exists.1 hmove.1
  obtain ⟨s, hs⟩ := Option.isSome_iff_exists.1 hmove.2
  have hw : w.segment? = none := by decide +kernel
  have hnone : ∀ x ∈ [w], x.segment? = none := by
    intro x hx
    rw [List.mem_singleton.1 hx, hw]
  obtain ⟨hx, hy, hz⟩ := hcontinues [] u [w] v [] p s hvisits hp hnone hs
  refine ⟨p, s, ?_, ?_, hx, hy, ?_⟩
  · rw [hsegments, hvisits]
    simp [hp, hw, hs]
  · have hstop : u.segment?.map Segment.stop = some ⟨4, 0, 7⟩ := by decide +kernel
    rw [hp] at hstop
    exact Option.some.inj hstop
  · have hlayer : [w, v].filterMap Visit.layerZ? = [1.5] := by decide +kernel
    rw [hz]
    change ([w, v].filterMap Visit.layerZ?).getLastD _ = _
    rw [hlayer]
    rfl

end Machine

end Toolpath
