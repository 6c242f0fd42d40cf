import Toolpath.Proofs.Completion
import Toolpath.Proofs.Directives
import Toolpath.Proofs.Moves

/-!
# Reruns of a file with a header

An initial load follows the directives of a file as they come. A rerun after it starts with the
options that they left and follows none. Where the directives head the file, so that nothing moves
before the last of them, the rerun gives what the initial load gave: at every record it stands
where the initial load stands, and has the settings that the directives to come will make there.
-/

namespace Toolpath

namespace Record

/-- Whether a record leaves the tool where it is, whatever the settings. -/
def isStill (r : Record) : Bool := !r.command.any Command.isMove && r.tags["layer"]?.isNone

/-- Records whose directives form a header: nothing moves before the last of them, and nothing
enables the layer view before the last that shows or hides layers. -/
def IsHeaded (records : List Record) : Prop :=
  records.Pairwise fun r later =>
    (later.bearsDirective = true → r.isStill = true) ∧
    (later.layerView?.isSome = true → r.tags["enable_layer_view"]? = none)

instance (records : List Record) : Decidable (IsHeaded records) :=
  inferInstanceAs (Decidable (List.Pairwise _ _))

end Record

namespace Modal

theorem step_of_isStill (m : Modal) {r : Record} (h : r.isStill = true) :
    (m.step r).2 = none ∧ (m.step r).1.position = m.position := by
  simp only [Record.isStill, Bool.and_eq_true, Bool.not_eq_true', Option.isNone_iff_eq_none] at h
  obtain ⟨hcommand, hlayer⟩ := h
  have hsegment : (m.step r).2 = none := m.step_eq_none r hcommand
  refine ⟨hsegment, ?_⟩
  rw [step_position_of_none m r hsegment]
  simp [tagged, layerZ?, hlayer]

end Modal

/-- The machine `b` stands where `a` stands, and has the settings that `a` will have after the
directives of the records to come. -/
structure Machine.Foresees (b a : Machine) (rest : List Record) : Prop where
  trace : b.trace = a.trace
  positioning : b.modal.positioning = a.modal.positioning
  feedrate : b.modal.feedrate = a.modal.feedrate
  totalLayers : b.modal.totalLayers = a.modal.totalLayers
  position : b.modal.position = a.modal.position
  lineCount : b.modal.lineCount = a.modal.lineCount
  options : b.options = a.options.followAll rest
  axes : b.modal.axes = a.modal.axes.followAll rest
  layerView : b.modal.layerView = Record.latest Record.layerView? rest a.modal.layerView
  layerHeight : (∀ r ∈ rest, r.layerHeight? = none) → b.modal.layerHeight = a.modal.layerHeight

namespace Machine.Foresees

variable {a b : Machine} {r : Record} {rest : List Record}

theorem ofOptions (o : Options) (records : List Record) :
    (Machine.ofOptions (o.followAll records)).Foresees (.ofOptions o) records := by
  refine ⟨rfl, rfl, rfl, rfl, rfl, rfl, rfl, rfl, rfl, ?_⟩
  intro hnone
  exact Record.latest_of_forall_eq_none hnone o.layerHeight

theorem eq (h : b.Foresees a []) : b = a := by
  have hheight : b.modal.layerHeight = a.modal.layerHeight :=
    h.layerHeight fun r hr => absurd hr List.not_mem_nil
  have hmodal : b.modal = a.modal := by
    ext1
    · exact h.positioning
    · exact h.feedrate
    · exact hheight
    · exact h.layerView
    · exact h.totalLayers
    · exact h.axes
    · exact h.position
    · exact h.lineCount
  ext1
  · exact h.options
  · exact hmodal
  · exact h.trace

/-- The layer height after a record is the same in both machines, unless a later one replaces it. -/
theorem layerHeight_step (h : b.Foresees a (r :: rest))
    (hnone : ∀ later ∈ rest, later.layerHeight? = none) :
    (r.tagNumber? "layer_height").getD b.modal.layerHeight =
      (r.tagNumber? "layer_height").getD (a.modal.follow r).layerHeight := by
  cases hr : r.tagNumber? "layer_height" with
  | some height => rfl
  | none =>
    have hfollow : (a.modal.follow r).layerHeight = a.modal.layerHeight := by
      rw [Modal.follow, Record.layerHeight?, hr, Option.getD_none]
    rw [Option.getD_none, Option.getD_none, hfollow]
    refine h.layerHeight ?_
    intro later hmem
    rcases List.mem_cons.1 hmem with rfl | hmem
    · exact hr
    · exact hnone later hmem

/-- The layer view after a record is what `b` foresees, as no later directive undoes a tag. -/
theorem layerView_step (h : b.Foresees a (r :: rest))
    (hview : ∀ later ∈ rest, later.layerView?.isSome = true →
      r.tags["enable_layer_view"]? = none) :
    (b.modal.step r).1.layerView =
      Record.latest Record.layerView? rest ((a.modal.follow r).step r).1.layerView := by
  rw [Modal.step_layerView, Modal.step_layerView, h.layerView, Record.latest_cons]
  cases henable : r.tags["enable_layer_view"]? with
  | none => rfl
  | some value =>
    have hnone : ∀ later ∈ rest, later.layerView? = none := by
      intro later hmem
      refine Option.not_isSome_iff_eq_none.1 fun hsome => ?_
      rw [hview later hmem hsome] at henable
      cases henable
    rw [Record.latest_of_forall_eq_none hnone, Record.latest_of_forall_eq_none hnone]
    rfl

theorem applySettings_eq (h : b.Foresees a (r :: rest))
    (hnone : ∀ later ∈ rest, later.bearsDirective = false) :
    b.modal.applySettings r = (a.modal.follow r).applySettings r := by
  have hview : b.modal.layerView = (a.modal.follow r).layerView := by
    rw [h.layerView, Record.latest_cons]
    exact Record.latest_of_forall_eq_none
      (fun later hmem => (Record.bearsDirective_eq_false_iff.1 (hnone later hmem)).2.1) _
  have haxes : b.modal.axes = (a.modal.follow r).axes := by
    rw [h.axes, AxisMap.followAll_cons]
    exact AxisMap.followAll_of_forall
      (fun later hmem => (Record.bearsDirective_eq_false_iff.1 (hnone later hmem)).1) _
  have hheight := h.layerHeight_step fun later hmem =>
    (Record.bearsDirective_eq_false_iff.1 (hnone later hmem)).2.2
  ext1
  · exact h.positioning
  · exact congrArg (Option.getD _) h.feedrate
  · exact hheight
  · exact congrArg (Option.getD _) hview
  · exact congrArg (Option.getD _) h.totalLayers
  · exact haxes
  · exact h.position
  · exact h.lineCount

theorem position_step (h : b.Foresees a (r :: rest))
    (hstill : ∀ later ∈ rest, later.bearsDirective = true → r.isStill = true) :
    (b.modal.step r).2 = ((a.modal.follow r).step r).2 ∧
      (b.modal.step r).1.position = ((a.modal.follow r).step r).1.position := by
  -- While the machines still differ in their settings, a directive is to come, and the record
  -- reads none of them.
  by_cases hlater : ∃ later ∈ rest, later.bearsDirective = true
  · obtain ⟨later, hmem, hbears⟩ := hlater
    have hr : r.isStill = true := hstill later hmem hbears
    obtain ⟨hsegment, hposition⟩ := b.modal.step_of_isStill hr
    obtain ⟨hsegment', hposition'⟩ := (a.modal.follow r).step_of_isStill hr
    rw [hsegment, hsegment', hposition, hposition']
    exact ⟨rfl, h.position⟩
  · have hnone : ∀ later ∈ rest, later.bearsDirective = false := by
      intro later hmem
      exact Bool.eq_false_iff.2 fun hbears => hlater ⟨later, hmem, hbears⟩
    rw [Modal.step_congr r (h.applySettings_eq hnone)]
    exact ⟨rfl, rfl⟩

/-- One record: it draws the same in both machines, and what `b` foresees shrinks by it. -/
theorem takeRecord (h : b.Foresees a (r :: rest))
    (hstill : ∀ later ∈ rest, later.bearsDirective = true → r.isStill = true)
    (hview : ∀ later ∈ rest, later.layerView?.isSome = true →
      r.tags["enable_layer_view"]? = none) :
    (Load.takeRecord .rerun b r).2 = (Load.takeRecord .initial a r).2 ∧
      (Load.takeRecord .rerun b r).1.Foresees (Load.takeRecord .initial a r).1 rest := by
  obtain ⟨hsegment, hposition⟩ := h.position_step hstill
  rw [Load.takeRecord, Load.takeRecord, Machine.applyDirectives_fst]
  refine ⟨hsegment, ?_⟩
  constructor
  · rw [Machine.process_trace, Machine.process_trace, hposition, h.trace]
  · rw [Machine.process_modal, Machine.process_modal, Modal.step_positioning,
      Modal.step_positioning, Modal.positioningAfter, Modal.positioningAfter, h.positioning]
    rfl
  · exact congrArg (Option.getD _) h.feedrate
  · exact congrArg (Option.getD _) h.totalLayers
  · exact hposition
  · exact congrArg (· + 1) h.lineCount
  · rw [Machine.process_options, Machine.process_options, h.options, Options.followAll_cons]
  · rw [Machine.process_modal, Machine.process_modal, Modal.step_axes, Modal.step_axes, h.axes,
      AxisMap.followAll_cons]
    rfl
  · exact h.layerView_step hview
  · exact h.layerHeight_step

/-- A whole run: `b` draws what `a` draws, and both end as the same machine. -/
theorem run (h : b.Foresees a rest) (hheaded : Record.IsHeaded rest) :
    Transducer.run (Load.takeRecord .rerun) b rest =
      Transducer.run (Load.takeRecord .initial) a rest := by
  induction rest generalizing a b with
  | nil => rw [Transducer.run_nil, Transducer.run_nil, h.eq]
  | cons r rest ih =>
    obtain ⟨hfirst, hrest⟩ := List.pairwise_cons.1 hheaded
    obtain ⟨hsegment, hnext⟩ := h.takeRecord (fun later hmem => (hfirst later hmem).1)
      (fun later hmem => (hfirst later hmem).2)
    rw [Transducer.run_cons, Transducer.run_cons, hsegment, ih hnext hrest]

end Machine.Foresees

namespace Loader

/-- After an initial load of a file whose directives form a header, a rerun gives what the initial
load gave. -/
theorem rerun_reproduces (l : Loader) (hmode : l.mode = .initial) {first second : Script}
    (hbytes : second.delivered = first.delivered)
    (hheaded : Record.IsHeaded ((Line.ofBytes first.delivered).map Line.record))
    {total total' : Option Nat} {c c' : Cancellation} {summary summary' : LoadSummary}
    (hfirst : (l.load first total c).result = .ok summary)
    (hsecond : ({ l with machine := (l.load first total c).machine, mode := .rerun }.load second
      total' c').result = .ok summary') :
    ({ l with machine := (l.load first total c).machine, mode := .rerun }.load second total'
      c').Agrees (l.load first total c) := by
  have hload := load_isLoadOf_of_ok hfirst
  have hreload := load_isLoadOf_of_ok hsecond
  rw [hmode] at hload
  rw [hbytes] at hreload
  let records := (Line.ofBytes first.delivered).map Line.record
  let o := l.machine.options
  have hoptions : (l.load first total c).machine.options = o.followAll records := by
    rw [hload.machine, Load.ofLines_eq, Load.run_initial_options]
    rfl
  have hsame : Load.ofLines .rerun (o.followAll records) (Line.ofBytes first.delivered) =
      Load.ofLines .initial o (Line.ofBytes first.delivered) := by
    rw [Load.ofLines_eq, Load.ofLines_eq]
    exact (Machine.Foresees.ofOptions o records).run hheaded
  change LoadOutcome.IsLoadOf _ .rerun (l.load first total c).machine.options _ at hreload
  rw [hoptions] at hreload
  exact hreload.agrees hload hsame

/-- The layer height of the header also counts for the layer that comes right behind it, and the
second line enables the layer view that the first one shows anyway. -/
theorem rerun_reproduces_header :
    let l : Loader := { machine := .ofOptions {}, chunkSize := 7 }
    let bytes : List UInt8 :=
      ";z_axis:e, hide_layers:false\n; layer_height:0.5, enable_layer_view:1\nG1 E3\n;layer:2\nG1 X1"
        |>.toUTF8.data.toList
    let first := l.load (.ofBytes bytes) none {}
    let again : Loader := { l with machine := first.machine, mode := .rerun }
    first.machine.options ≠ {} ∧ first.segments.length = 2 ∧
      (again.load (.ofBytes bytes) none .never).Agrees first := by
  intro l bytes first again
  have hheaded : Record.IsHeaded ((Line.ofBytes bytes).map Line.record) := by decide +kernel
  have hcalm : (Script.ofBytes bytes).IsCalm := by decide +kernel
  have hfirst := (l.load_isLoadOf_of_isCalm hcalm none (c := {}) rfl).result
  have hsecond := (again.load_isLoadOf_of_isCalm hcalm none (c := .never) rfl).result
  refine ⟨by decide +kernel, by decide +kernel, ?_⟩
  rw [← Script.delivered_ofBytes bytes] at hheaded
  exact rerun_reproduces l rfl rfl hheaded hfirst hsecond

end Loader

end Toolpath
