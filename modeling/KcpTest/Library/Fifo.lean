/-!
Contract: machines that behave as a first-in first-out queue.

Owns: runs of a machine that answers each input with a state and outputs, the
invariant rule for such runs, what the inputs of a run ask for, and the
conservation law of a machine whose every step moves items between its outputs and
its contents in order.
-/

set_option autoImplicit false

namespace KcpTest.Library.Fifo

universe u v w x

variable {State : Type u} {Input : Type v} {Output : Type w} {α : Type x}

/-- The last state of a run, and its outputs in order. -/
def run (step : State → Input → State × List Output) (state : State) :
    List Input → State × List Output
  | [] => (state, [])
  | input :: inputs =>
      let next := step state input
      let rest := run step next.1 inputs
      (rest.1, next.2 ++ rest.2)

/-- A run with one more input is the run and then the step. -/
theorem run_concat_fst (step : State → Input → State × List Output) (state : State)
    (inputs : List Input) (input : Input) :
    (run step state (inputs ++ [input])).1 = (step (run step state inputs).1 input).1 := by
  induction inputs generalizing state with
  | nil => rfl
  | cons first inputs inductionHypothesis => exact inductionHypothesis (step state first).1

/-- What each step preserves, and what the outputs of each step are under it,
holds over a run. -/
theorem run_induction {step : State → Input → State × List Output}
    {invariant : State → Prop} {allowed : Output → Prop}
    (preserved : ∀ state input, invariant state → invariant (step state input).1)
    (emitted : ∀ state input, invariant state → ∀ output ∈ (step state input).2, allowed output)
    {state : State} (initially : invariant state) (inputs : List Input) :
    invariant (run step state inputs).1 ∧ ∀ output ∈ (run step state inputs).2, allowed output := by
  induction inputs generalizing state with
  | nil => exact ⟨initially, by simp [run]⟩
  | cons input inputs inductionHypothesis =>
      obtain ⟨finally', all⟩ := inductionHypothesis (preserved state input initially)
      refine ⟨finally', fun output member => ?_⟩
      rcases List.mem_append.mp member with here | later
      · exact emitted state input initially output here
      · exact all output later

/-! ### What the inputs ask for -/

/-- What the inputs of a run ask for, each in the state it finds. -/
def asked (step : State → Input → State × List Output) (ask : State → Input → Option α)
    (state : State) : List Input → List α
  | [] => []
  | input :: inputs => (ask state input).toList ++ asked step ask (step state input).1 inputs

/-- A machine whose every step puts what its input asks for puts, over a run, what
the inputs ask for. -/
theorem put_eq_asked {step : State → Input → State × List Output} {invariant : State → Prop}
    {ask : State → Input → Option α} {put : Output → Option α}
    (preserved : ∀ state input, invariant state → invariant (step state input).1)
    (obeys : ∀ state input, invariant state →
      (step state input).2.filterMap put = (ask state input).toList)
    {state : State} (initially : invariant state) (inputs : List Input) :
    (run step state inputs).2.filterMap put = asked step ask state inputs := by
  induction inputs generalizing state with
  | nil => rfl
  | cons input inputs inductionHypothesis =>
      have first := obeys state input initially
      have rest := inductionHypothesis (preserved state input initially)
      rw [run, asked, List.filterMap_append, first, rest]

/-! ### Conservation -/

/-- Under an invariant, each step takes from the front of the contents what its
outputs take, and puts at the back what its outputs put. -/
structure Queues (step : State → Input → State × List Output) (invariant : State → Prop)
    (contents : State → List α) (put take : Output → Option α) : Prop where
  preserved : ∀ state input, invariant state → invariant (step state input).1
  moves : ∀ state input, invariant state →
    (step state input).2.filterMap take ++ contents (step state input).1 =
      contents state ++ (step state input).2.filterMap put

/-- What was taken, and then what is left, is what was there, and then what was
put. -/
theorem Queues.conserves {step : State → Input → State × List Output}
    {invariant : State → Prop} {contents : State → List α} {put take : Output → Option α}
    (queues : Queues step invariant contents put take) {state : State}
    (initially : invariant state) (inputs : List Input) :
    (run step state inputs).2.filterMap take ++ contents (run step state inputs).1 =
      contents state ++ (run step state inputs).2.filterMap put := by
  induction inputs generalizing state with
  | nil => simp [run]
  | cons input inputs inductionHypothesis =>
      have first := queues.moves state input initially
      have rest := inductionHypothesis (queues.preserved state input initially)
      simp only [run, List.filterMap_append, List.append_assoc]
      rw [rest, ← List.append_assoc, first, List.append_assoc]

end KcpTest.Library.Fifo
