import Toolpath.Proofs.Completion

/-!
# Sessions with failing loads

In a session one loader attempts load after load, and in between its machine may be used directly.
An attempt that was cancelled or failed leaves the machine as its options make it, and one that
found nothing to open leaves it as it was. So no later load can tell whether an attempt that did
not complete took place at all.
-/

namespace Toolpath

def LoadOutcome.completes (outcome : LoadOutcome) : Bool := outcome.result.isOk

/-- What a loader may be asked to load. -/
inductive Attempt where
  | stream (script : Script) (total : Option Nat) (c : Cancellation)
  | file (contents : List UInt8) (c : Cancellation)
  /-- A file that cannot be opened. -/
  | unopened (reason : String)
deriving DecidableEq

namespace Attempt

def outcome (l : Loader) : Attempt → LoadOutcome
  | stream script total c => l.load script total c
  | file contents c => l.loadFile contents c
  | unopened reason => l.loadUnopened reason

/-- The machine that is left of an attempt that did not complete. -/
def remains (m : Machine) : Attempt → Machine
  | stream .. | file .. => .ofOptions m.options
  | unopened _ => m

@[simp] theorem remains_options (attempt : Attempt) (m : Machine) :
    (attempt.remains m).options = m.options := by
  cases attempt <;> rfl

theorem completes_outcome_of_isLoadOf {outcome : LoadOutcome} {mode : LoadMode} {o : Options}
    {bytes : List UInt8} (h : outcome.IsLoadOf mode o bytes) : outcome.completes = true := by
  rw [LoadOutcome.completes, h.result]
  rfl

theorem outcome_of_not_completes {attempt : Attempt} {l : Loader}
    (h : (attempt.outcome l).completes = false) :
    ((attempt.outcome l).result = .error .cancelled ∨
        ∃ reason, (attempt.outcome l).result = .error (.io reason)) ∧
      (attempt.outcome l).trace = none ∧
      (attempt.outcome l).machine = attempt.remains l.machine := by
  cases attempt with
  | stream script total c =>
    rcases l.load_isLoadOf_or_isAbandoned script total c with hdone | hleft
    · rw [outcome, completes_outcome_of_isLoadOf hdone] at h
      cases h
    · exact ⟨hleft.result, hleft.trace_eq, hleft.machine⟩
  | file contents c =>
    rcases l.loadFile_isLoadOf_or_isAbandoned contents c with hdone | hleft
    · rw [outcome, completes_outcome_of_isLoadOf hdone] at h
      cases h
    · exact ⟨hleft.result, hleft.trace_eq, hleft.machine⟩
  | unopened reason => exact ⟨.inr ⟨reason, rfl⟩, rfl, rfl⟩

end Attempt

/-- What may happen in a session: the machine takes a record or a directive, or a load is attempted
in the mode that is chosen for it. -/
inductive SessionStep where
  | process (r : Record)
  | follow (d : Directive)
  | load (mode : LoadMode) (attempt : Attempt)
deriving DecidableEq

namespace Loader

def step (l : Loader) : SessionStep → Loader × Option LoadOutcome
  | .process r => ({ l with machine := (l.machine.process r).1 }, none)
  | .follow d => ({ l with machine := l.machine.follow d }, none)
  | .load mode attempt =>
    let outcome := attempt.outcome { l with mode := mode }
    ({ l with mode := mode, machine := outcome.machine }, some outcome)

def session (l : Loader) (steps : List SessionStep) : Loader × List LoadOutcome :=
  Transducer.run step l steps

/-- A session without the attempts that do not complete in it. -/
def withoutFailures (l : Loader) : List SessionStep → List SessionStep
  | [] => []
  | s :: rest =>
    if (l.step s).2.all LoadOutcome.completes then s :: withoutFailures (l.step s).1 rest
    else withoutFailures (l.step s).1 rest

theorem session_cons (l : Loader) (s : SessionStep) (rest : List SessionStep) :
    l.session (s :: rest) =
      (((l.step s).1.session rest).1, (l.step s).2.toList ++ ((l.step s).1.session rest).2) :=
  Transducer.run_cons step l s rest

theorem session_append (l : Loader) (first second : List SessionStep) :
    l.session (first ++ second) =
      (((l.session first).1.session second).1,
        (l.session first).2 ++ ((l.session first).1.session second).2) :=
  Transducer.run_append step l first second

/-- What a loader brings to its next load. -/
structure SameSettings (l l' : Loader) : Prop where
  chunkSize : l.chunkSize = l'.chunkSize
  options : l.machine.options = l'.machine.options

theorem follow_options_congr {m m' : Machine} (h : m.options = m'.options) (d : Directive) :
    (m.follow d).options = (m'.follow d).options := by
  cases d <;> simp [Machine.follow, h]

variable {l l' : Loader}

theorem SameSettings.outcome_eq (h : l.SameSettings l') (mode : LoadMode) {attempt : Attempt}
    (hdone : (attempt.outcome { l with mode := mode }).completes = true) :
    attempt.outcome { l' with mode := mode } = attempt.outcome { l with mode := mode } := by
  have hstart (total : Option Nat) :
      Load.start mode total l'.machine = Load.start mode total l.machine := by
    simp [Load.start, Machine.reset, h.options]
  cases attempt with
  | stream script total c =>
    simp [Attempt.outcome, Loader.load, readSize, hstart, h.chunkSize]
  | file contents c =>
    simp [Attempt.outcome, loadFile, readSize, hstart, h.chunkSize]
  | unopened reason => cases hdone

theorem SameSettings.step (h : l.SameSettings l') {s : SessionStep}
    (hdone : (l.step s).2.all LoadOutcome.completes = true) :
    (l.step s).1.SameSettings (l'.step s).1 ∧ (l'.step s).2 = (l.step s).2 := by
  cases s with
  | process r => exact ⟨⟨h.chunkSize, h.options⟩, rfl⟩
  | follow d => exact ⟨⟨h.chunkSize, follow_options_congr h.options d⟩, rfl⟩
  | load mode attempt =>
    have heq := h.outcome_eq mode hdone
    refine ⟨⟨h.chunkSize, ?_⟩, congrArg some heq⟩
    exact congrArg (fun outcome => outcome.machine.options) heq.symm

theorem SameSettings.failed (h : l.SameSettings l') {s : SessionStep}
    (hfail : ¬ (l.step s).2.all LoadOutcome.completes = true) : (l.step s).1.SameSettings l' := by
  cases s with
  | process r => exact absurd rfl hfail
  | follow d => exact absurd rfl hfail
  | load mode attempt =>
    have hleft := (Attempt.outcome_of_not_completes ((Bool.not_eq_true _).mp hfail)).2.2
    refine ⟨h.chunkSize, ?_⟩
    rw [← h.options, ← attempt.remains_options l.machine]
    exact congrArg Machine.options hleft

theorem SameSettings.session_withoutFailures (h : l.SameSettings l') (steps : List SessionStep) :
    (l.session steps).1.SameSettings (l'.session (l.withoutFailures steps)).1 ∧
      (l'.session (l.withoutFailures steps)).2 =
        (l.session steps).2.filter LoadOutcome.completes := by
  induction steps generalizing l l' with
  | nil => exact ⟨h, rfl⟩
  | cons s rest ih =>
    rw [withoutFailures, session_cons l]
    by_cases hdone : (l.step s).2.all LoadOutcome.completes = true
    · obtain ⟨hnext, hout⟩ := h.step hdone
      obtain ⟨hend, houts⟩ := ih hnext
      rw [if_pos hdone, session_cons l', hout]
      refine ⟨hend, ?_⟩
      have hkept : (l.step s).2.toList.filter LoadOutcome.completes = (l.step s).2.toList := by
        cases hs : (l.step s).2 with
        | none => rfl
        | some outcome => simpa [hs] using hdone
      rw [List.filter_append, hkept, houts]
    · obtain ⟨hend, houts⟩ := ih (h.failed hdone)
      rw [if_neg hdone]
      refine ⟨hend, ?_⟩
      have hdropped : (l.step s).2.toList.filter LoadOutcome.completes = [] := by
        cases hs : (l.step s).2 with
        | none => simp [hs] at hdone
        | some outcome => simpa [hs] using hdone
      rw [List.filter_append, hdropped, List.nil_append, houts]

/-- Attempts that do not complete are cancelled or fail in reading, hand over no trace and leave no
more than the options of before. Without them, the other loads of the session have the same
outcomes. -/
theorem failed_loads_invisible (l : Loader) (steps : List SessionStep) :
    (∀ before mode attempt after, steps = before ++ .load mode attempt :: after →
      let reached := (l.session before).1
      let outcome := attempt.outcome { reached with mode := mode }
      outcome.completes = false →
        (outcome.result = .error .cancelled ∨ ∃ reason, outcome.result = .error (.io reason)) ∧
        outcome.trace = none ∧
        (l.session (before ++ [.load mode attempt])).1.machine = attempt.remains reached.machine) ∧
    (l.session (l.withoutFailures steps)).2 = (l.session steps).2.filter LoadOutcome.completes ∧
    (l.session (l.withoutFailures steps)).1.machine.options =
      (l.session steps).1.machine.options := by
  obtain ⟨hend, houts⟩ := SameSettings.session_withoutFailures (l := l) ⟨rfl, rfl⟩ steps
  refine ⟨?_, houts, hend.options.symm⟩
  intro before mode attempt after _ reached outcome hfail
  obtain ⟨hresult, htrace, hmachine⟩ := Attempt.outcome_of_not_completes hfail
  refine ⟨hresult, htrace, ?_⟩
  rw [session_append]
  exact hmachine

/-- A load that follows two directives and fails, between a load that completes and one that finds
no file. -/
theorem failed_loads_invisible_between :
    let l : Loader := { machine := .ofOptions {} }
    let stream (text : String) (events : Script) : Attempt :=
      .stream (.answer (.bytes text.toUTF8.data.toList) false :: events) none {}
    let first : SessionStep := .load .initial (stream ";x_axis:u\n" [])
    let failing := stream ";y_axis:v, layer_height:2\nG1 X1\n" [.answer (.failed "unplugged") false]
    let last : SessionStep := .load .rerun (stream "G1 U3 Y4\n" [])
    (l.session [first, .load .initial failing]).1.machine =
        .ofOptions { axes := ⟨.u, .y, .z⟩ } ∧
      (l.session [first, last]).2 =
        (l.session [first, .load .initial failing, .load .rerun (.unopened "no file"), last]).2.filter
          LoadOutcome.completes := by
  intro l stream first failing last
  let steps := [first, .load .initial failing, .load .rerun (.unopened "no file"), last]
  have h := failed_loads_invisible l steps
  have hfailed := h.1 [first] .initial failing _ rfl (by decide +kernel)
  have hkept : l.withoutFailures steps = [first, last] := by decide +kernel
  rw [hkept] at h
  refine ⟨hfailed.2.2.trans ?_, h.2.1⟩
  decide +kernel

end Loader

end Toolpath
