import Mathlib.Data.Nat.Basic

/-!
Contract: timers that re-arm.

Owns: the looks at a timer that never fires before it is due, and is then due
again between a shortest and a longest period later; how many firings a span of
time holds, how close two of them come, and how late one can be.

Does **not** own a clock or a counter; times are natural numbers.
-/

set_option autoImplicit false

namespace KcpTest.Library.Pace

/-- Looks at a timer, each with its time and whether the timer fired. It is due at
`due`; a look from there on fires it, up to a horizon behind which it may count as
early. Firing sets it ahead of the look, within `longest`, and at least `shortest`
behind the last due time. -/
inductive Paced (shortest longest horizon : ℕ) : ℕ → List (ℕ × Bool) → Prop
  | none (due : ℕ) : Paced shortest longest horizon due []
  | skip {due time : ℕ} {trace : List (ℕ × Bool)}
      (waiting : time < due ∨ due + horizon ≤ time)
      (later : Paced shortest longest horizon due trace) :
      Paced shortest longest horizon due ((time, false) :: trace)
  | fire {due due' time : ℕ} {trace : List (ℕ × Bool)} (reached : due ≤ time)
      (next : due + shortest ≤ due') (ahead : time < due') (near : due' ≤ time + longest)
      (later : Paced shortest longest horizon due' trace) :
      Paced shortest longest horizon due ((time, true) :: trace)

/-- The times at which the timer fired. -/
def firings (trace : List (ℕ × Bool)) : List ℕ :=
  (trace.filter fun look => look.2).map Prod.fst

section Paced

variable {shortest longest horizon due : ℕ} {trace : List (ℕ × Bool)}

/-- The `j`-th firing comes `j` periods after the first due time, or later. -/
theorem Paced.not_early (paced : Paced shortest longest horizon due trace) {j time : ℕ}
    (found : (firings trace)[j]? = some time) : due + j * shortest ≤ time := by
  induction paced generalizing j with
  | none due => simp [firings] at found
  | skip waiting later inductionHypothesis => exact inductionHypothesis found
  | fire reached next ahead near later inductionHypothesis =>
      cases j with
      | zero =>
          obtain rfl := Option.some.inj found
          omega
      | succ j =>
          have rest := inductionHypothesis found
          rw [Nat.add_mul]
          omega

/-- Between two firings there is a period for every firing in between. -/
theorem Paced.spaced (paced : Paced shortest longest horizon due trace)
    {i j first second : ℕ} (order : i < j) (atFirst : (firings trace)[i]? = some first)
    (atSecond : (firings trace)[j]? = some second) :
    first + (j - i - 1) * shortest < second := by
  induction paced generalizing i j with
  | none due => simp [firings] at atFirst
  | skip waiting later inductionHypothesis => exact inductionHypothesis order atFirst atSecond
  | fire reached next ahead near later inductionHypothesis =>
      cases j with
      | zero => exact absurd order (Nat.not_lt_zero i)
      | succ j =>
          cases i with
          | zero =>
              obtain rfl := Option.some.inj atFirst
              have rest := later.not_early atSecond
              have count : j + 1 - 0 - 1 = j := by omega
              rw [count]
              omega
          | succ i =>
              have rest := inductionHypothesis (by omega) atFirst atSecond
              have count : j + 1 - (i + 1) - 1 = j - i - 1 := by omega
              rw [count]
              exact rest

/-- Before the first firing the due time stays. -/
theorem Paced.waits (paced : Paced shortest longest horizon due trace)
    {quiet rest : List (ℕ × Bool)} {time : ℕ} (split : trace = quiet ++ (time, false) :: rest)
    (skipped : ∀ look ∈ quiet, look.2 = false) : time < due ∨ due + horizon ≤ time := by
  induction quiet generalizing trace with
  | nil =>
      subst split
      cases paced with
      | skip waiting later => exact waiting
  | cons look quiet inductionHypothesis =>
      subst split
      cases paced with
      | skip waiting later =>
          exact inductionHypothesis later rfl fun other member =>
            skipped other (List.mem_cons_of_mem _ member)
      | fire reached next ahead near later =>
          exact absurd (skipped _ List.mem_cons_self) (by simp)

/-- A look that does not fire comes within the longest period of the last firing,
or behind the horizon. -/
theorem Paced.prompt (paced : Paced shortest longest horizon due trace)
    {before quiet rest : List (ℕ × Bool)} {fired time : ℕ}
    (split : trace = before ++ (fired, true) :: (quiet ++ (time, false) :: rest))
    (skipped : ∀ look ∈ quiet, look.2 = false) :
    time < fired + longest ∨ fired + horizon ≤ time := by
  induction before generalizing trace due with
  | nil =>
      subst split
      cases paced with
      | fire reached next ahead near later =>
          have := later.waits rfl skipped
          omega
  | cons look before inductionHypothesis =>
      subst split
      cases paced with
      | skip waiting later => exact inductionHypothesis later rfl
      | fire reached next ahead near later => exact inductionHypothesis later rfl

end Paced

end KcpTest.Library.Pace
