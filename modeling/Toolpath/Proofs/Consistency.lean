import Toolpath.Machine.Operation
import Toolpath.Proofs.Directives

/-!
# What a machine keeps consistent

The axes and the layer settings stand twice in a machine, in its options and in its modal settings,
and its position stands a second time at the end of its trace. Whatever is done with a machine, new
starts included, these copies agree where they have to: the axes always, the position whenever the
trace has one. The trace has one position for each record since it was last emptied.
-/

namespace Toolpath

namespace Machine

/-- Starts again from other options. -/
def resetWith (m : Machine) (o : Options) : Machine := { m with options := o }.reset

/-- What may happen to a machine: an operation, or a new start. -/
inductive Event where
  | operation (op : Operation)
  | reset
  | resetWith (o : Options)
deriving DecidableEq

namespace Event

def isReset : Event → Bool
  | operation _ => false
  | reset | resetWith _ => true

/-- Whether the trace is empty behind the event, whatever was in it. -/
def emptiesTrace : Event → Bool
  | operation .takeTrace | reset | resetWith _ => true
  | operation _ => false

end Event

def undergo (m : Machine) : Event → Machine
  | .operation op => (m.perform op).1
  | .reset => m.reset
  | .resetWith o => m.resetWith o

def after (m : Machine) (history : List Event) : Machine := history.foldl undergo m

/-- What holds between any two events, if `counted` records had been processed when the trace was
last empty. -/
structure IsConsistent (m : Machine) (counted : Nat) : Prop where
  axes : m.modal.axes = m.options.axes
  last : ∀ p, m.trace.back? = some p → p = m.modal.position
  size : m.trace.size + counted = m.modal.lineCount

/-- Two machines that differ at most in the settings that directives change. -/
structure SameMotion (m m' : Machine) : Prop where
  position : m'.modal.position = m.modal.position
  positioning : m'.modal.positioning = m.modal.positioning
  feedrate : m'.modal.feedrate = m.modal.feedrate
  totalLayers : m'.modal.totalLayers = m.modal.totalLayers
  lineCount : m'.modal.lineCount = m.modal.lineCount
  trace : m'.trace = m.trace

variable {m m' : Machine} {counted : Nat}

theorem sameMotion_follow (m : Machine) (d : Directive) : m.SameMotion (m.follow d) := by
  cases d <;> exact ⟨rfl, rfl, rfl, rfl, rfl, rfl⟩

theorem sameMotion_applyDirectives (m : Machine) (r : Record) :
    m.SameMotion (m.applyDirectives r).1 := by
  rw [applyDirectives_fst]
  exact ⟨rfl, rfl, rfl, rfl, rfl, rfl⟩

namespace IsConsistent

theorem ofOptions (o : Options) : (Machine.ofOptions o).IsConsistent 0 where
  axes := rfl
  last _ h := by cases h
  size := rfl

/-- Nothing but the axes has to be checked of a machine that has moved as another. -/
theorem of_sameMotion (h : m.IsConsistent counted) (hmotion : m.SameMotion m')
    (haxes : m'.modal.axes = m'.options.axes) : m'.IsConsistent counted where
  axes := haxes
  last p hp := by
    rw [hmotion.trace] at hp
    rw [hmotion.position]
    exact h.last p hp
  size := by rw [hmotion.trace, hmotion.lineCount, h.size]

theorem process (h : m.IsConsistent counted) (r : Record) :
    (m.process r).1.IsConsistent counted where
  axes := h.axes
  last p hp := by
    rw [process_trace, Array.back?_push, Option.some.injEq] at hp
    exact hp.symm
  size := by
    rw [process_trace, Array.size_push, process_modal, Modal.step_lineCount, ← h.size]
    omega

theorem processAll (h : m.IsConsistent counted) (records : List Record) :
    (m.processAll records).1.IsConsistent counted := by
  induction records generalizing m with
  | nil => exact h
  | cons r rest ih =>
    rw [processAll_cons]
    exact ih (h.process r)

theorem applyDirectives (h : m.IsConsistent counted) (r : Record) :
    (m.applyDirectives r).1.IsConsistent counted := by
  refine h.of_sameMotion (m.sameMotion_applyDirectives r) ?_
  rw [applyDirectives_fst]
  exact congrArg (AxisMap.follow · r) h.axes

theorem follow (h : m.IsConsistent counted) (d : Directive) :
    (m.follow d).IsConsistent counted := by
  refine h.of_sameMotion (m.sameMotion_follow d) ?_
  cases d with
  | axisSource axis letter => exact congrArg (AxisMap.setSource · axis letter) h.axes
  | layerView on => exact h.axes
  | layerHeight height => exact h.axes

theorem takeTrace (h : m.IsConsistent counted) :
    m.takeTrace.1.IsConsistent m.modal.lineCount where
  axes := h.axes
  last _ hp := by cases hp
  size := Nat.zero_add _

/-- An event that leaves the trace in place leaves the count from which it goes on. -/
theorem undergo (h : m.IsConsistent counted) {e : Event} (he : e.emptiesTrace = false) :
    (m.undergo e).IsConsistent counted := by
  cases e with
  | reset => cases he
  | resetWith o => cases he
  | operation op =>
    cases op with
    | process r => exact h.process r
    | processAll records => exact h.processAll records
    | applyDirectives r => exact h.applyDirectives r
    | follow d => exact h.follow d
    | takeTrace => cases he

theorem after (h : m.IsConsistent counted) {since : List Event}
    (hsince : ∀ e ∈ since, e.emptiesTrace = false) : (m.after since).IsConsistent counted := by
  induction since generalizing m with
  | nil => exact h
  | cons e rest ih =>
    exact ih (h.undergo (hsince e List.mem_cons_self))
      fun e he => hsince e (List.mem_cons_of_mem _ he)

/-- Whatever the event, the machine is consistent again behind it, with a count of its own. -/
theorem exists_undergo (h : m.IsConsistent counted) (e : Event) :
    ∃ counted', (m.undergo e).IsConsistent counted' := by
  by_cases he : e.emptiesTrace = false
  · exact ⟨counted, h.undergo he⟩
  · cases e with
    | reset => exact ⟨0, .ofOptions m.options⟩
    | resetWith o => exact ⟨0, .ofOptions o⟩
    | operation op =>
      cases op with
      | takeTrace => exact ⟨m.modal.lineCount, h.takeTrace⟩
      | process | processAll | applyDirectives | follow => exact absurd rfl he

theorem exists_after (h : m.IsConsistent counted) (history : List Event) :
    ∃ counted', (m.after history).IsConsistent counted' := by
  induction history generalizing m counted with
  | nil => exact ⟨counted, h⟩
  | cons e rest ih =>
    obtain ⟨counted', hnext⟩ := h.exists_undergo e
    exact ih hnext

end IsConsistent

theorem after_append (m : Machine) (first second : List Event) :
    m.after (first ++ second) = (m.after first).after second := List.foldl_append

/-- A machine that has just been set up or reset counts from zero. -/
theorem isConsistent_of_fresh (o : Options) {before : List Event}
    (hfresh : ∀ e ∈ before.getLast?, e.isReset = true) :
    ((ofOptions o).after before).IsConsistent 0 := by
  rcases List.eq_nil_or_concat before with rfl | ⟨earlier, e, rfl⟩
  · exact .ofOptions o
  · have he : e.isReset = true := hfresh e (by simp)
    rw [List.concat_eq_append, after_append]
    cases e with
    | operation op => cases he
    | reset => exact .ofOptions _
    | resetWith o => exact .ofOptions o

/-- Whatever has happened to a machine, its axes are those of its options, its trace ends where it
stands, and the trace is as long as the count of its lines, less the count at which the trace was
last taken since the last reset. From here on no record changes the options, no directive changes
anything but its setting, and a reset leads to what a machine of these options does. -/
theorem stays_consistent (o : Options) (history : List Event) :
    let m := (ofOptions o).after history
    m.modal.axes = m.options.axes ∧
    (∀ p, m.trace.back? = some p → p = m.modal.position) ∧
    (∀ before since, history = before ++ .operation .takeTrace :: since →
      (∀ e ∈ since, e.emptiesTrace = false) →
        m.trace.size + ((ofOptions o).after before).modal.lineCount = m.modal.lineCount) ∧
    (∀ before since, history = before ++ since →
      (∀ e ∈ before.getLast?, e.isReset = true) → (∀ e ∈ since, e.emptiesTrace = false) →
        m.trace.size = m.modal.lineCount) ∧
    (∀ r, (m.process r).1.options = m.options) ∧
    (∀ records, (m.processAll records).1.options = m.options) ∧
    (∀ r, m.SameMotion (m.applyDirectives r).1) ∧
    (∀ d, m.SameMotion (m.follow d)) ∧
    ∀ records, m.reset.processAll records = (ofOptions m.options).processAll records := by
  intro m
  obtain ⟨counted, h⟩ := (IsConsistent.ofOptions o).exists_after history
  refine ⟨h.axes, h.last, ?_, ?_, m.process_options, m.processAll_options,
    m.sameMotion_applyDirectives, m.sameMotion_follow, fun _ => rfl⟩
  · intro before since hhistory hsince
    obtain ⟨_, hbefore⟩ := (IsConsistent.ofOptions o).exists_after before
    have hsize := (hbefore.takeTrace.after hsince).size
    have hm : m = (((ofOptions o).after before).takeTrace.1).after since := by
      change (ofOptions o).after history = _
      rw [hhistory, after_append]
      rfl
    rw [hm]
    exact hsize
  · intro before since hhistory hfresh hsince
    have hsize := ((isConsistent_of_fresh o hfresh).after hsince).size
    have hm : m = ((ofOptions o).after before).after since := by
      change (ofOptions o).after history = _
      rw [hhistory, after_append]
    rw [hm]
    exact hsize

/-- A directive and a modal tag before the trace is taken, and a setter and two records after. -/
theorem stays_consistent_over_taking :
    let before : List Event := [.resetWith { layerView := true },
      .operation (.process (.ofLine "G91 ;cts:5, layer_height:2")),
      .operation (.applyDirectives (.ofLine ";x_axis:u")), .operation (.process (.ofLine "G1 U3"))]
    let since : List Event := [.operation (.follow (.layerHeight 0.5)),
      .operation (.processAll [.ofLine "G1 U4", .ofLine ";layer:3"])]
    let m := (ofOptions {}).after (before ++ .operation .takeTrace :: since)
    m.trace.size + 2 = m.modal.lineCount ∧ m.modal.position = ⟨7, 0, 1.5⟩ ∧
      m.modal.axes = ⟨.u, .y, .z⟩ ∧
      m.reset.processAll [.ofLine "G1 U2"] =
        (ofOptions { layerView := true, layerHeight := 0.5, axes := ⟨.u, .y, .z⟩ }).processAll
          [.ofLine "G1 U2"] := by
  intro before since m
  obtain ⟨haxes, hlast, htaken, -, -, -, -, -, hreset⟩ :=
    stays_consistent {} (before ++ .operation .takeTrace :: since)
  have hsince : ∀ e ∈ since, e.emptiesTrace = false := by
    intro e he
    rcases List.mem_cons.1 he with rfl | he
    · rfl
    · rw [List.mem_singleton.1 he]
      rfl
  have hcount : ((ofOptions {}).after before).modal.lineCount = 2 := rfl
  have hoptions : m.options =
      { layerView := true, layerHeight := 0.5, axes := ⟨.u, .y, .z⟩ } := by decide +kernel
  have hback : m.trace.back? = some ⟨7, 0, 1.5⟩ := by decide +kernel
  refine ⟨?_, (hlast _ hback).symm, ?_, ?_⟩
  · rw [← htaken before since rfl hsince, hcount]
  · rw [haxes, hoptions]
  · rw [hreset, hoptions]

end Machine

end Toolpath
