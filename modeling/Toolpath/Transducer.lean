/-!
# Running a step over a list

A step takes a state and one input, and gives the next state and at most one output. `run` feeds it
a list of inputs and collects the outputs in order. Running over two lists is running over the
first and then over the second.
-/

namespace Toolpath.Transducer

variable {σ α β : Type}

/-- One step of a run, on the state and the outputs so far. -/
def advance (step : σ → α → σ × Option β) (progress : σ × Array β) (input : α) : σ × Array β :=
  match step progress.1 input with
  | (state, some output) => (state, progress.2.push output)
  | (state, none) => (state, progress.2)

/-- The last state and all outputs. -/
def run (step : σ → α → σ × Option β) (state : σ) (inputs : List α) : σ × List β :=
  let (last, outputs) := inputs.foldl (advance step) (state, #[])
  (last, outputs.toList)

theorem foldl_advance (step : σ → α → σ × Option β) (inputs : List α) (state : σ)
    (outputs : Array β) :
    inputs.foldl (advance step) (state, outputs) =
      ((inputs.foldl (advance step) (state, #[])).1,
        outputs ++ (inputs.foldl (advance step) (state, #[])).2) := by
  induction inputs generalizing state outputs with
  | nil => simp
  | cons input rest ih =>
    simp only [List.foldl_cons, advance]
    cases h : step state input with
    | mk next output =>
      cases output with
      | none => exact ih next outputs
      | some b =>
        rw [ih next (outputs.push b), ih next (#[].push b)]
        simp

@[simp] theorem run_nil (step : σ → α → σ × Option β) (state : σ) :
    run step state [] = (state, []) := rfl

theorem run_cons (step : σ → α → σ × Option β) (state : σ) (input : α) (rest : List α) :
    run step state (input :: rest) =
      ((run step (step state input).1 rest).1,
        (step state input).2.toList ++ (run step (step state input).1 rest).2) := by
  simp only [run, List.foldl_cons, advance]
  cases h : step state input with
  | mk next output =>
    cases output with
    | none => simp
    | some b =>
      rw [foldl_advance]
      simp

theorem run_append (step : σ → α → σ × Option β) (state : σ) (first second : List α) :
    run step state (first ++ second) =
      ((run step (run step state first).1 second).1,
        (run step state first).2 ++ (run step (run step state first).1 second).2) := by
  induction first generalizing state with
  | nil => simp
  | cons input rest ih => simp [run_cons, ih, List.append_assoc]

/-- What every step keeps of the state and the outputs so far, a run keeps. -/
theorem run_invariant {step : σ → α → σ × Option β} {P : σ → List β → Prop}
    (hstep : ∀ s outputs a, P s outputs → P (step s a).1 (outputs ++ (step s a).2.toList))
    {state : σ} {outputs : List β} (h : P state outputs) (inputs : List α) :
    P (run step state inputs).1 (outputs ++ (run step state inputs).2) := by
  induction inputs generalizing state outputs with
  | nil => rwa [run_nil, List.append_nil]
  | cons a rest ih =>
    rw [run_cons, ← List.append_assoc]
    exact ih (hstep state outputs a h)

theorem run_map {γ : Type} (step : σ → α → σ × Option β) (f : γ → α) (state : σ)
    (inputs : List γ) :
    run step state (inputs.map f) = run (fun s x => step s (f x)) state inputs := by
  induction inputs generalizing state with
  | nil => rfl
  | cons input rest ih => rw [List.map_cons, run_cons, run_cons, ih]

/-- Where a step commutes with a map of states, inputs and outputs, so does a run. -/
theorem run_map_of_step {σ' α' β' : Type} {step : σ → α → σ × Option β}
    {step' : σ' → α' → σ' × Option β'} {f : σ → σ'} {g : α → α'} {h : β → β'}
    (hstep : ∀ s a, step' (f s) (g a) = (f (step s a).1, (step s a).2.map h)) (state : σ)
    (inputs : List α) :
    run step' (f state) (inputs.map g) =
      (f (run step state inputs).1, (run step state inputs).2.map h) := by
  induction inputs generalizing state with
  | nil => rfl
  | cons input rest ih =>
    rw [List.map_cons, run_cons, run_cons, hstep, ih, List.map_append, Option.toList_map]

end Toolpath.Transducer
