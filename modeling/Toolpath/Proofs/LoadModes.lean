import Toolpath.Proofs.Directives
import Toolpath.Proofs.SameLines

/-!
# The two modes of a load

An initial load follows the directives of a record before it takes the record, a rerun does not.
A layer height is a directive and a modal setting as well, so the record makes it hold in both
modes before anything reads it. Where no record has any other directive, the two modes therefore
hand over the same, and leave the same machine but for the layer height in its options.
-/

namespace Toolpath

namespace Record

/-- Whether a record neither shows or hides layers nor gives a letter to an axis. It may still set
the layer height. -/
def isNeutral (r : Record) : Bool :=
  r.tags["hide_layers"]?.isNone && [Axis.x, .y, .z].all fun axis => (r.axisLetter? axis).isNone

theorem isNeutral_iff {r : Record} :
    r.isNeutral = true ↔ r.layerView? = none ∧ ∀ axis, r.axisLetter? axis = none := by
  simp only [isNeutral, layerView?, List.all_cons, List.all_nil, Bool.and_true, Bool.and_eq_true,
    Option.isNone_iff_eq_none, Option.map_eq_none_iff]
  constructor
  · rintro ⟨hview, hx, hy, hz⟩
    refine ⟨hview, fun axis => ?_⟩
    cases axis with
    | x => exact hx
    | y => exact hy
    | z => exact hz
  · rintro ⟨hview, haxis⟩
    exact ⟨hview, haxis .x, haxis .y, haxis .z⟩

end Record

theorem Options.followAll_of_isNeutral {records : List Record}
    (h : ∀ r ∈ records, r.isNeutral = true) (o : Options) :
    o.followAll records = { o with layerHeight := (o.followAll records).layerHeight } := by
  have hview : ∀ r ∈ records, r.layerView? = none :=
    fun r hr => (Record.isNeutral_iff.1 (h r hr)).1
  have haxes := AxisMap.followAll_of_forall fun r hr => (Record.isNeutral_iff.1 (h r hr)).2
  rw [followAll, haxes, Record.latest_of_forall_eq_none hview]

/-- The layer height of a neutral record counts for it, whether it is followed before or not. -/
theorem Modal.step_follow_of_isNeutral (m : Modal) {r : Record} (h : r.isNeutral = true) :
    (m.follow r).step r = m.step r := by
  obtain ⟨hview, haxis⟩ := Record.isNeutral_iff.1 h
  have hheight : (r.tagNumber? "layer_height").getD (m.follow r).layerHeight =
      (r.tagNumber? "layer_height").getD m.layerHeight := by
    rw [follow, Record.layerHeight?]
    cases r.tagNumber? "layer_height" <;> rfl
  apply step_congr
  rw [applySettings, hheight]
  simp only [follow, AxisMap.follow, hview, haxis, Option.getD_none]
  rfl

def Machine.withOptions (m : Machine) (o : Options) : Machine := { m with options := o }

def LoadOutcome.withOptions (outcome : LoadOutcome) (o : Options) : LoadOutcome :=
  { outcome with machine := outcome.machine.withOptions o }

namespace Load

/-- One neutral record: the initial load and the rerun differ in their options at most. -/
theorem takeRecord_withOptions (m : Machine) (o : Options) {r : Record}
    (h : r.isNeutral = true) :
    takeRecord .rerun (m.withOptions o) r =
      ((takeRecord .initial m r).1.withOptions o, (takeRecord .initial m r).2) := by
  have hstep := m.modal.step_follow_of_isNeutral h
  rw [takeRecord, takeRecord, Machine.applyDirectives_fst, Machine.process, Machine.process, hstep]
  rfl

theorem run_withOptions (m : Machine) (o : Options) {lines : List Line}
    (h : ∀ line ∈ lines, line.record.isNeutral = true) :
    Transducer.run (takeLine .rerun) (m.withOptions o) lines =
      ((Transducer.run (takeLine .initial) m lines).1.withOptions o,
        (Transducer.run (takeLine .initial) m lines).2) := by
  induction lines generalizing m with
  | nil => rfl
  | cons line rest ih =>
    obtain ⟨hline, hrest⟩ := List.forall_mem_cons.1 h
    have hfirst : takeLine .rerun (m.withOptions o) line = _ := takeRecord_withOptions m o hline
    rw [Transducer.run_cons, Transducer.run_cons, hfirst, ih _ hrest]
    rfl

/-- The rerun that stands where an initial load stands, with the options of their start. -/
def asRerun (load : Load) : Load :=
  { load with mode := .rerun, machine := load.machine.withOptions load.options }

section AsRerun

variable {load : Load} (hmode : load.mode = .initial)

include hmode

theorem takeBatch_asRerun {batch : Batch}
    (h : ∀ line ∈ batch.lines, line.record.isNeutral = true) :
    load.asRerun.takeBatch batch = (load.takeBatch batch).asRerun := by
  have hrun := run_withOptions load.machine load.options h
  rw [takeBatch, asRerun, hrun, takeBatch, hmode]
  rfl

theorem takeBatch?_asRerun {batch : Option Batch}
    (h : ∀ line ∈ Batch.linesOf batch, line.record.isNeutral = true) :
    load.asRerun.takeBatch? batch = (load.takeBatch? batch).asRerun := by
  cases batch with
  | none => rfl
  | some batch => exact takeBatch_asRerun hmode h

theorem takeChunk_asRerun {chunk : List UInt8}
    (h : ∀ line ∈ (load.cutter.feed chunk).2, line.record.isNeutral = true) :
    load.asRerun.takeChunk chunk = (load.takeChunk chunk).asRerun := by
  let fed : Load := { load with cutter := (load.cutter.push chunk).1 }
  have hfed : fed.mode = .initial := hmode
  rw [← Cutter.linesOf_push] at h
  exact takeBatch?_asRerun hfed h

theorem complete_asRerun
    (h : ∀ line ∈ Batch.linesOf load.cutter.finish.2, line.record.isNeutral = true) :
    load.asRerun.complete = load.complete.withOptions load.options := by
  let finished : Load := { load with cutter := load.cutter.finish.1 }
  have hfinished : finished.mode = .initial := hmode
  have hend : load.asRerun.takeEnd = load.takeEnd.asRerun := takeBatch?_asRerun hfinished h
  rw [complete, hend, complete, ← takeEnd_options load]
  rfl

theorem endWith_asRerun (a : Answer)
    (h : ∀ line ∈ Batch.linesOf load.cutter.finish.2, line.record.isNeutral = true) :
    load.asRerun.endWith a = (load.endWith a).withOptions load.options := by
  cases a with
  | bytes chunk => exact complete_asRerun hmode h
  | failed reason | interrupted reason => rfl

theorem takeEvent_asRerun {event : ReadEvent}
    (h : ∀ line ∈ (load.cutter.feed event.chunk).2, line.record.isNeutral = true) :
    load.asRerun.takeEvent event = (load.takeEvent event).asRerun := by
  cases event with
  | pending | cancel | release => rfl
  | answer a cancelling =>
    cases a with
    | failed reason | interrupted reason => rfl
    | bytes chunk => exact takeChunk_asRerun hmode h

/-- The whole run: the reads bring the same batches, one by one. -/
theorem follow_asRerun {script : Script}
    (h : ∀ r ∈ load.cutter.records script.delivered, r.isNeutral = true) :
    load.asRerun.follow script.answers =
      (load.follow script.answers).withOptions load.options := by
  -- The records still to come carry the induction: a read takes its own away from them.
  induction script generalizing load with
  | nil => exact complete_asRerun hmode fun line hline => h _ (List.mem_map_of_mem hline)
  | cons event rest ih =>
    rcases event.isLast_or_not with ⟨a, cancelling, rfl, ha⟩ | hlast
    · rw [Script.delivered_of_isLast ha] at h
      rw [follow_answers_of_isLast _ ha, follow_answers_of_isLast _ ha]
      exact endWith_asRerun hmode a fun line hline => h _ (List.mem_map_of_mem hline)
    · rw [Script.delivered_of_not_isLast hlast, Cutter.records_append] at h
      have hevent : load.asRerun.takeEvent event = (load.takeEvent event).asRerun :=
        takeEvent_asRerun hmode fun line hline =>
          h _ (List.mem_append_left _ (List.mem_map_of_mem hline))
      have hrest : ∀ r ∈ (load.takeEvent event).cutter.records (Script.delivered rest),
          r.isNeutral = true := by
        intro r hr
        rw [takeEvent_cutter] at hr
        exact h r (List.mem_append_right _ hr)
      rw [follow_answers_of_not_isLast _ hlast, follow_answers_of_not_isLast _ hlast, hevent,
        ih (by rw [takeEvent_mode, hmode]) hrest, takeEvent_options]

end AsRerun

end Load

namespace Loader

/-- A stream without directives other than layer heights, loaded initially and as a rerun, from the
same options: the two loads have the same result and hand over the same batches and the same trace,
and their machines differ in the layer height of the options at most. Neither load is cancelled. -/
theorem modes_agree_without_directives (l : Loader) (hmode : l.mode = .initial) {m : Machine}
    (hoptions : m.options = l.machine.options) {script : Script}
    (hneutral : ∀ line ∈ Line.ofBytes script.delivered, line.record.isNeutral = true)
    {total : Option Nat} {c c' : Cancellation}
    (hinitial : (l.load script total c).result ≠ .error .cancelled)
    (hrerun : ({ l with machine := m, mode := .rerun }.load script total c').result ≠
      .error .cancelled) :
    let initial := l.load script total c
    let rerun := { l with machine := m, mode := .rerun }.load script total c'
    rerun.result = initial.result ∧ rerun.handovers = initial.handovers ∧
      rerun.machine.modal = initial.machine.modal ∧
      rerun.machine.trace = initial.machine.trace ∧
      rerun.machine.options = l.machine.options ∧
      initial.machine.options = { l.machine.options with
        layerHeight := initial.machine.options.layerHeight } := by
  intro initial rerun
  let load := Load.start l.mode total l.machine
  have hstart : Load.start .rerun total m = load.asRerun := by
    rw [Load.start, Machine.reset, hoptions]
    rfl
  have hrecords : ∀ r ∈ load.cutter.records (script.cut l.readSize).delivered,
      r.isNeutral = true := by
    rw [Script.delivered_cut]
    intro r hr
    obtain ⟨line, hline, rfl⟩ := List.mem_map.1 hr
    exact hneutral line hline
  have hfirst : initial = load.follow (script.cut l.readSize).answers :=
    Load.run_eq_follow hinitial
  have hsecond : rerun = load.asRerun.follow (script.cut l.readSize).answers := by
    rw [← hstart]
    exact Load.run_eq_follow hrerun
  have hsame : rerun = initial.withOptions l.machine.options := by
    rw [hsecond, Load.follow_asRerun hmode hrecords, ← hfirst]
    rfl
  have hheight : initial.machine.options = { l.machine.options with
      layerHeight := initial.machine.options.layerHeight } := by
    rcases l.load_isLoadOf_or_isAbandoned script total c with hload | hleft
    · have hlast : initial.machine.options =
          l.machine.options.followAll ((Line.ofBytes script.delivered).map Line.record) := by
        rw [hload.machine, hmode, Load.ofLines_eq, Load.run_initial_options]
        rfl
      rw [hlast]
      exact Options.followAll_of_isNeutral (List.forall_mem_map.2 hneutral) _
    · have hreset : initial.machine.options = l.machine.options := by
        rw [hleft.machine]
        rfl
      rw [hreset]
  rw [hsame]
  exact ⟨rfl, rfl, rfl, rfl, rfl, hheight⟩

/-- Layer heights and layers on lines that move, between axis tags that name no letter. The rerun is
that of a machine which has moved before, and nobody could cancel it. -/
theorem modes_agree_without_directives_layers :
    let l : Loader := { machine := .ofOptions {}, chunkSize := 9 }
    let m : Machine := (l.machine.process (.ofLine "G1 X9")).1
    let bytes : List UInt8 :=
      "G1 X1 ;x_axis:left, enable_layer_view:1\nG91 ;y_axis:2\r\nG1 E3 ;layer:2, layer_height:0.5"
        |>.toUTF8.data.toList
    let initial := l.load (.ofBytes bytes) none {}
    let rerun := { l with machine := m, mode := .rerun }.load (.ofBytes bytes) none .never
    rerun.handovers = initial.handovers ∧ initial.handovers.length = 4 ∧
      initial.machine.modal.position.z = 1.0 ∧ rerun.machine.modal = initial.machine.modal ∧
      initial.machine.options.layerHeight = 0.5 ∧ rerun.machine.options = {} := by
  intro l m bytes initial rerun
  have hneutral : ∀ line ∈ Line.ofBytes bytes, line.record.isNeutral = true := by
    decide +kernel
  have hcalm : (Script.ofBytes bytes).IsCalm := by decide +kernel
  have hinitial : initial.result ≠ .error .cancelled := by
    rw [(l.load_isLoadOf_of_isCalm hcalm none (c := {}) rfl).result]
    exact fun h => nomatch h
  have hrerun : rerun.result ≠ .error .cancelled := by
    rw [(Loader.load_isLoadOf_of_isCalm _ hcalm none (c := .never) rfl).result]
    exact fun h => nomatch h
  rw [← Script.delivered_ofBytes bytes] at hneutral
  obtain ⟨-, hhandovers, hmodal, -, hoptions, -⟩ :=
    l.modes_agree_without_directives rfl rfl hneutral hinitial hrerun
  refine ⟨hhandovers, ?_, ?_, hmodal, ?_, hoptions⟩
  · decide +kernel
  · decide +kernel
  · decide +kernel

end Loader

end Toolpath
