import Mathlib.Data.List.Forall2
import Toolpath.Proofs.DirectLoads
import Toolpath.Proofs.Directives
import Toolpath.Proofs.Session

/-!
# Loading a file again

An initial load leaves options that are, each on its own, what the last directive of the file says,
or what they were if none does. A second initial load of the file finds these options and leaves
them, so that from the second on all its initial loads are alike. Reruns and loads without a handle
leave the options in any case.
-/

namespace Toolpath

namespace Record

/-- The axis letter that a tag spells, if it is a text. -/
def letterTag? (r : Record) (key : String) : Option AxisLetter :=
  match r.tags[key]? with
  | some (.text s) => AxisLetter.ofText? s.toList
  | _ => none

/-- Whether the layers stay in view, by the tag that hides them. -/
def keepsLayers? (r : Record) : Option Bool :=
  r.tags["hide_layers"]?.map fun value => value ≠ .text "true"

/-- The tags that change options. None of the other tags does, modal ones included. -/
def directiveKeys : List String := ["x_axis", "y_axis", "z_axis", "hide_layers", "layer_height"]

def SameDirectives (r r' : Record) : Prop := ∀ key ∈ directiveKeys, r'.tags[key]? = r.tags[key]?

instance (r r' : Record) : Decidable (r.SameDirectives r') :=
  inferInstanceAs (Decidable (∀ key ∈ directiveKeys, _))

end Record

/-- Every option but the feedrate is what the last of the records that says it says. -/
structure Options.IsLatest (o' o : Options) (records : List Record) : Prop where
  xAxis : o'.axes.x = Record.latest (·.letterTag? "x_axis") records o.axes.x
  yAxis : o'.axes.y = Record.latest (·.letterTag? "y_axis") records o.axes.y
  zAxis : o'.axes.z = Record.latest (·.letterTag? "z_axis") records o.axes.z
  layerView : o'.layerView = Record.latest Record.keepsLayers? records o.layerView
  layerHeight : o'.layerHeight = Record.latest (·.tagNumber? "layer_height") records o.layerHeight
  feedrate : o'.feedrate = o.feedrate

namespace Options

theorem isLatest_followAll (o : Options) (records : List Record) :
    (o.followAll records).IsLatest o records := by
  have hview : Record.layerView? = Record.keepsLayers? := by
    funext r
    rw [Record.layerView?, Record.keepsLayers?]
    cases r.tags["hide_layers"]? with
    | none => rfl
    | some value => by_cases h : value = .text "true" <;> simp [h]
  constructor
  · rfl
  · rfl
  · rfl
  · rw [← hview]
    rfl
  · rfl
  · rfl

theorem followAll_followAll (o : Options) (records : List Record) :
    (o.followAll records).followAll records = o.followAll records := by
  simp only [followAll, AxisMap.followAll, Record.latest_latest]

theorem follow_congr {r r' : Record} (h : r.SameDirectives r') (o : Options) :
    o.follow r' = o.follow r := by
  have hkey : ∀ axis : Axis, axis.directiveKey ∈ Record.directiveKeys := by
    intro axis
    cases axis <;> decide
  have haxis : ∀ axis, r'.axisLetter? axis = r.axisLetter? axis := by
    intro axis
    rw [Record.axisLetter?, Record.axisLetter?, h _ (hkey axis)]
  have hview : r'.layerView? = r.layerView? := by
    rw [Record.layerView?, Record.layerView?, h "hide_layers" (by decide)]
  have hheight : r'.layerHeight? = r.layerHeight? := by
    rw [Record.layerHeight?, Record.layerHeight?, Record.tagNumber?, Record.tagNumber?,
      h "layer_height" (by decide)]
  simp only [follow, AxisMap.follow, haxis, hview, hheight]

theorem followAll_congr {records records' : List Record}
    (h : List.Forall₂ Record.SameDirectives records records') (o : Options) :
    o.followAll records' = o.followAll records := by
  induction h generalizing o with
  | nil => rfl
  | cons hr _ ih => rw [followAll_cons, followAll_cons, follow_congr hr, ih]

end Options

def Attempt.delivered : Attempt → List UInt8
  | stream script _ _ => script.delivered
  | file contents _ => contents
  | unopened _ => []

/-- What does not replace the settings that a file has left: records, loads that follow no
directives, and initial loads of the same file. -/
def SessionStep.Reloads (bytes : List UInt8) : SessionStep → Prop
  | process _ | load .rerun _ | load .initial (.unopened _) => True
  | follow _ => False
  | load .initial attempt => attempt.delivered = bytes

namespace Attempt

theorem isLoadOf_of_completes {attempt : Attempt} {l : Loader}
    (h : (attempt.outcome l).completes = true) :
    (attempt.outcome l).IsLoadOf l.mode l.machine.options attempt.delivered := by
  have hne {outcome : LoadOutcome} (hdone : outcome.completes = true) {o : Options}
      (hleft : outcome.IsAbandoned o) : False := by
    rcases hleft.result with herror | ⟨reason, herror⟩ <;>
      rw [LoadOutcome.completes, herror] at hdone <;> cases hdone
  cases attempt with
  | stream script total c =>
    exact (l.load_isLoadOf_or_isAbandoned script total c).resolve_right (hne h)
  | file contents c => exact (l.loadFile_isLoadOf_or_isAbandoned contents c).resolve_right (hne h)
  | unopened reason => cases h

end Attempt

namespace Loader

variable {l : Loader} {attempt : Attempt}

theorem options_of_not_completes (h : (attempt.outcome l).completes = false) :
    (attempt.outcome l).machine.options = l.machine.options := by
  rw [(Attempt.outcome_of_not_completes h).2.2, Attempt.remains_options]

theorem options_initial
    (h : (attempt.outcome { l with mode := .initial }).completes = true) :
    (attempt.outcome { l with mode := .initial }).machine.options =
      l.machine.options.followAll ((Line.ofBytes attempt.delivered).map Line.record) := by
  rw [(Attempt.isLoadOf_of_completes h).machine, Load.ofLines_eq, Load.run_initial_options]
  rfl

theorem options_rerun (l : Loader) (attempt : Attempt) :
    (attempt.outcome { l with mode := .rerun }).machine.options = l.machine.options := by
  cases h : (attempt.outcome { l with mode := .rerun }).completes with
  | true =>
    rw [(Attempt.isLoadOf_of_completes h).machine, Load.ofLines_eq, Load.run_rerun,
      Machine.processAll_options]
    rfl
  | false => exact options_of_not_completes h

/-- Options that the records of a file leave as they are stay through all that reloads it. -/
theorem options_step {bytes : List UInt8} {s : SessionStep} (hs : s.Reloads bytes)
    (h : l.machine.options.followAll ((Line.ofBytes bytes).map Line.record) = l.machine.options) :
    (l.step s).1.machine.options = l.machine.options := by
  cases s with
  | process r => rfl
  | follow d => cases hs
  | load mode attempt =>
    cases mode with
    | rerun => exact l.options_rerun attempt
    | initial =>
      change (attempt.outcome { l with mode := .initial }).machine.options = l.machine.options
      cases hdone : (attempt.outcome { l with mode := .initial }).completes with
      | false => exact options_of_not_completes hdone
      | true =>
        cases attempt with
        | unopened reason => cases hdone
        | stream script total c | file contents c =>
          have hbytes : Attempt.delivered _ = bytes := hs
          rw [options_initial hdone, hbytes, h]

theorem options_session {bytes : List UInt8} {steps : List SessionStep}
    (hsteps : ∀ s ∈ steps, s.Reloads bytes)
    (h : l.machine.options.followAll ((Line.ofBytes bytes).map Line.record) = l.machine.options) :
    (l.session steps).1.machine.options = l.machine.options := by
  induction steps generalizing l with
  | nil => rfl
  | cons s rest ih =>
    have hstep := options_step (hsteps s List.mem_cons_self) h
    rw [session_cons, ih (fun s hs => hsteps s (List.mem_cons_of_mem _ hs)) (by rw [hstep, h]),
      hstep]

/-- An initial load leaves the options that the last directives of its file say, and no other tag
has a part in it. Reloading the file leaves these options, so that all later initial loads of it
give what the second one gives. Loads that follow no directives never change the options. -/
theorem reloads_leave_options (l : Loader) {first : Attempt}
    (hfirst : (first.outcome { l with mode := .initial }).completes = true) :
    let loaded := (l.step (.load .initial first)).1
    let records := (Line.ofBytes first.delivered).map Line.record
    loaded.machine.options.IsLatest l.machine.options records ∧
    (∀ (l' : Loader) (other : Attempt), l'.machine.options = l.machine.options →
      (other.outcome { l' with mode := .initial }).completes = true →
      List.Forall₂ Record.SameDirectives records ((Line.ofBytes other.delivered).map Line.record) →
      (other.outcome { l' with mode := .initial }).machine.options = loaded.machine.options) ∧
    (∀ steps : List SessionStep, (∀ s ∈ steps, s.Reloads first.delivered) →
      (loaded.session steps).1.machine.options = loaded.machine.options) ∧
    (∀ (before between : List SessionStep) (second later : Attempt),
      (∀ s ∈ before ++ .load .initial second :: between, s.Reloads first.delivered) →
      later.delivered = first.delivered →
      let reached := (loaded.session before).1
      let reached' := (loaded.session (before ++ .load .initial second :: between)).1
      (second.outcome { reached with mode := .initial }).completes = true →
      (later.outcome { reached' with mode := .initial }).completes = true →
      (later.outcome { reached' with mode := .initial }).Agrees
        (second.outcome { reached with mode := .initial })) ∧
    (∀ (l' : Loader) (attempt : Attempt),
      (attempt.outcome { l' with mode := .rerun }).machine.options = l'.machine.options) ∧
    ∀ (m : Machine) (script : Script), (directLoad m script).machine.options = m.options := by
  intro loaded records
  have hoptions : loaded.machine.options = l.machine.options.followAll records :=
    options_initial hfirst
  have hsettled : loaded.machine.options.followAll records = loaded.machine.options := by
    rw [hoptions, Options.followAll_followAll]
  refine ⟨?_, ?_, fun steps hsteps => options_session hsteps hsettled, ?_, options_rerun, ?_⟩
  · rw [hoptions]
    exact l.machine.options.isLatest_followAll records
  · intro l' other hsame hdone hrecords
    rw [options_initial hdone, hsame, Options.followAll_congr hrecords, hoptions]
  · intro before between second later hsteps hlater reached reached' hsecond hdone
    have hmem : SessionStep.load .initial second ∈ before ++ .load .initial second :: between :=
      List.mem_append_right _ List.mem_cons_self
    have hbytes : second.delivered = first.delivered := by
      cases second with
      | unopened reason => cases hsecond
      | stream script total c | file contents c => exact hsteps _ hmem
    have hreached : reached.machine.options = loaded.machine.options :=
      options_session (fun s hs => hsteps s (List.mem_append_left _ hs)) hsettled
    have hreached' : reached'.machine.options = loaded.machine.options :=
      options_session hsteps hsettled
    have hload := Attempt.isLoadOf_of_completes hsecond
    have hreload := Attempt.isLoadOf_of_completes hdone
    rw [hbytes, hreached] at hload
    rw [hlater, hreached'] at hreload
    exact hreload.agrees hload rfl
  · intro m script
    rw [directLoad_eq_load]
    exact options_rerun { machine := m } (.stream script.uninterrupted.withoutRequests none .never)

/-- The first move is read before the directive for its axis, so that only the loads from the second
on agree. A record and a failing rerun come between these. -/
theorem reloads_leave_options_mixed :
    let l : Loader := { machine := .ofOptions { feedrate := 7 } }
    let bytes := ("G1 X1 U5\n;x_axis:u, layer_height:2, cts:4\nG1 U2 ;hide_layers:1, layer:3\n" ++
      ";x_axis:q, layer_height:tall, enable_layer_view:0").toUTF8.data.toList
    let first : Attempt := .file bytes .never
    let loaded := (l.step (.load .initial first)).1
    let second : Attempt := .stream (.ofBytes bytes) none {}
    let between : List SessionStep := [.process (.ofLine "G1 U9 ;cts:3"),
      .load .rerun (.stream [.answer (.failed "unplugged") false] none {})]
    let reached := (loaded.session (.load .initial second :: between)).1
    loaded.machine.options.axes.x = .u ∧ loaded.machine.options.layerView = true ∧
      loaded.machine.options.layerHeight = 2 ∧ loaded.machine.options.feedrate = 7 ∧
      (second.outcome { loaded with mode := .initial }).segments ≠ (first.outcome l).segments ∧
      (first.outcome { reached with mode := .initial }).Agrees
        (second.outcome { loaded with mode := .initial }) := by
  intro l bytes first loaded second between reached
  have hfirst : (first.outcome { l with mode := .initial }).completes = true := by decide +kernel
  obtain ⟨hlatest, -, -, hlater, -, -⟩ := reloads_leave_options l hfirst
  refine ⟨?_, ?_, ?_, hlatest.feedrate, by decide +kernel, ?_⟩
  · rw [hlatest.xAxis]
    decide +kernel
  · rw [hlatest.layerView]
    decide +kernel
  · rw [hlatest.layerHeight]
    decide +kernel
  · refine hlater [] between second first ?_ rfl (by decide +kernel) (by decide +kernel)
    intro s hs
    simp only [between, List.nil_append, List.mem_cons, List.not_mem_nil, or_false] at hs
    rcases hs with rfl | rfl | rfl
    · exact Script.delivered_ofBytes bytes
    · trivial
    · trivial

end Loader

end Toolpath
