import Mathlib.Logic.Relation

/-!
Contract: reaching a goal by progress.

Owns: the rule that a system in which every state short of the goal can get
closer to it, by some run, can reach the goal, and the rule that a run keeps
what each of its steps keeps.

Does **not** own the system: its states, its steps and the measure are
parameters.
-/

set_option autoImplicit false

namespace KcpTest.Library.Progress

open Relation

universe u

variable {σ : Type u} {Step : σ → σ → Prop}

/-- Wherever the goal is not reached, a run gets closer to it, and keeps the
invariant. -/
def Advances (Step : σ → σ → Prop) (Inv Goal : σ → Prop) (measure : σ → Nat) : Prop :=
  ∀ state, Inv state → ¬ Goal state →
    ∃ next, ReflTransGen Step state next ∧ Inv next ∧ measure next < measure state

/-- Progress reaches the goal. -/
theorem Advances.reaches {Inv Goal : σ → Prop} {measure : σ → Nat}
    (advances : Advances Step Inv Goal measure) (state : σ) (inv : Inv state) :
    ∃ final, ReflTransGen Step state final ∧ Inv final ∧ Goal final := by
  -- strong induction on the distance left
  induction distance : measure state using Nat.strongRecOn generalizing state with
  | ind distance' inductionHypothesis =>
      by_cases goal : Goal state
      · exact ⟨state, ReflTransGen.refl, inv, goal⟩
      · obtain ⟨next, run, kept, closer⟩ := advances state inv goal
        obtain ⟨final, rest, inv', goal'⟩ :=
          inductionHypothesis (measure next) (distance ▸ closer) next kept rfl
        exact ⟨final, run.trans rest, inv', goal'⟩

/-- What every step keeps, a run keeps. -/
theorem keeps_of_run {Inv : σ → Prop}
    (step : ∀ state next, Step state next → Inv state → Inv next) {state next : σ}
    (run : ReflTransGen Step state next) (inv : Inv state) : Inv next := by
  induction run with
  | refl => exact inv
  | tail _ last inductionHypothesis => exact step _ _ last inductionHypothesis

end KcpTest.Library.Progress
