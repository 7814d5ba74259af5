import Mathlib.Data.List.Induction

/-!
Contract: properties of every event of a history.

Owns: a property of an event and the events before it, asked of each event of a
history; the invariants of the histories along which it holds; and the rule that
passes from one such property to another under an invariant.
-/

set_option autoImplicit false

namespace KcpTest.Library.History

universe u

variable {Event : Type u} {P Q : List Event → Event → Prop} {history : List Event}

/-- `P` holds of each event, after the events before it. -/
def Along (P : List Event → Event → Prop) (history : List Event) : Prop :=
  ∀ earlier next later, history = earlier ++ next :: later → P earlier next

theorem Along.of_append {more : List Event} (along : Along P (history ++ more)) :
    Along P history := by
  intro earlier next later split
  apply along earlier next (later ++ more)
  rw [split, List.append_assoc, List.cons_append]

/-- What the empty history has and each event for which `P` holds preserves. -/
theorem Along.invariant {Inv : List Event → Prop} (along : Along P history) (start : Inv [])
    (step : ∀ earlier next, Inv earlier → P earlier next → Inv (earlier ++ [next])) :
    Inv history := by
  induction history using List.reverseRecOn with
  | nil => exact start
  | append_singleton earlier next inductionHypothesis =>
      have before := inductionHypothesis along.of_append
      exact step earlier next before (along earlier next [] rfl)

/-- `Q` follows from `P` along a history when it does under an invariant that `P`
preserves. -/
theorem Along.transfer {Inv : List Event → Prop} (along : Along P history) (start : Inv [])
    (step : ∀ earlier next, Inv earlier → P earlier next → Inv (earlier ++ [next]))
    (follows : ∀ earlier next, Inv earlier → P earlier next → Q earlier next) :
    Along Q history := by
  intro earlier next later split
  have before : Along P earlier := by
    rw [split] at along
    exact along.of_append
  apply follows earlier next (before.invariant start step)
  exact along earlier next later split

end KcpTest.Library.History
