import KcpTest.Queue.Interleaving
import Mathlib.Data.List.Induction

/-!
Contract: who wakes a thread that waits in `receive`.

Owns: the end signal as a thread's `stop` on the other object, the waits it
should end, and the exact condition under which nobody sleeps behind it.

The flag `stop` sets belongs to the object behind `messageQueue`, and `receive`
reads the flag of the instance.
-/

set_option autoImplicit false

namespace KcpTest.Queue

open KcpTest.Library KcpTest.Library.Fifo

variable {Thread : Type} [DecidableEq Thread]

/-- The step with which a thread leaves `stop`, behind its notification. -/
def System.endsStop (system : System Thread) : Thread × Move → Bool
  | (thread, move) =>
      match system.place thread, move with
      | .stopping, .proceed => true
      | _, _ => false

/-- The step evaluates the condition `receive` waits for. -/
def System.looks (system : System Thread) : Thread × Move → Bool
  | (thread, move) =>
      match system.place thread, move with
      | .outside, .receive => true
      | .waiting _, .proceed => true
      | _, _ => false

/-- Some thread has completed a `stop` in the run. -/
def stopEnded (system : System Thread) : List (Thread × Move) → Bool
  | [] => false
  | move :: moves => system.endsStop move || stopEnded (system.step move).1 moves

/-- The state after these moves. -/
def stateAfter (moves : List (Thread × Move)) : System Thread :=
  (run System.step System.start moves).1

/-- A thread that is parked and not notified waits beside an empty queue, and no
end signal was sent. -/
def NoMissedWakeup (moves : List (Thread × Move)) : Prop :=
  ∀ thread, (stateAfter moves).place thread = .waiting false →
    (stateAfter moves).statics.queue = [] ∧ stopEnded System.start moves = false

/-- In no state of the run is a wakeup missed. -/
def NeverMissesWakeup (moves : List (Thread × Move)) : Prop :=
  ∀ before, before <+: moves → NoMissedWakeup before

/-- No step of the run looks at an empty queue when an end signal was sent. -/
def LooksInTime (moves : List (Thread × Move)) : Prop :=
  ∀ before move, before ++ [move] <+: moves → (stateAfter before).looks move = true →
    (stateAfter before).statics.queue ≠ [] ∨ stopEnded System.start before = false

/-! ### Single steps -/

theorem stopEnded_concat (system : System Thread) (moves : List (Thread × Move))
    (move : Thread × Move) :
    stopEnded system (moves ++ [move]) =
      (stopEnded system moves || (run System.step system moves).1.endsStop move) := by
  induction moves generalizing system with
  | nil => simp [stopEnded, run]
  | cons first moves inductionHypothesis =>
      simp only [List.cons_append, stopEnded, run, inductionHypothesis, Bool.or_assoc]

theorem stateAfter_concat (moves : List (Thread × Move)) (move : Thread × Move) :
    stateAfter (moves ++ [move]) = ((stateAfter moves).step move).1 :=
  run_concat_fst _ _ _ _

/-- A step that looks at an empty queue parks its thread, whatever was signalled. -/
theorem Running.parks {system : System Thread} (running : Running system)
    {move : Thread × Move} (looks : system.looks move = true)
    (empty : system.statics.queue = []) :
    (system.step move).1.place move.1 = .waiting false := by
  have parked : (system.receive move.1).1.place move.1 = .waiting false := by
    simp [System.receive, running.dataProcess, MessageQueue.receive, empty, System.goto]
  obtain ⟨thread, move⟩ := move
  dsimp only [System.looks] at looks
  split at looks
  · rename_i place
    simp only [System.step, place]
    exact parked
  · rename_i place
    simp only [System.step, place]
    exact parked
  · simp at looks

omit [DecidableEq Thread] in
/-- After a notification nobody sleeps. -/
theorem System.notifyAll_awake (system : System Thread) (thread : Thread) :
    system.notifyAll.place thread ≠ .waiting false :=
  Place.notify_ne (system.place thread)

/-- Who goes somewhere to be awake leaves the others as they were. -/
theorem System.asleep_of_goto {system : System Thread} {mover thread : Thread} {place : Place}
    (awake : place ≠ .waiting false)
    (asleep : (system.goto mover place).place thread = .waiting false) :
    system.place thread = .waiting false := by
  have moved : (if thread = mover then place else system.place thread) = .waiting false := asleep
  split at moved
  · exact absurd moved awake
  · exact moved

theorem Running.asleep_receive {system : System Thread} (running : Running system)
    {mover thread : Thread}
    (asleep : (system.receive mover).1.place thread = .waiting false) :
    system.place thread = .waiting false ∨ system.statics.queue = [] := by
  unfold System.receive at asleep
  rw [running.dataProcess] at asleep
  cases contents : system.statics.queue with
  | nil => exact Or.inr rfl
  | cons message rest =>
      left
      rw [contents] at asleep
      exact System.asleep_of_goto (by simp : Place.outside ≠ .waiting false) asleep

/-- A thread sleeps after a step only if it slept before, and the step was no end
signal, or if the step looked at an empty queue. -/
theorem Running.asleep_step {system : System Thread} (running : Running system)
    {move : Thread × Move} {thread : Thread}
    (asleep : (system.step move).1.place thread = .waiting false) :
    system.endsStop move = false ∧ (system.place thread = .waiting false ∨
      system.looks move = true ∧ system.statics.queue = []) := by
  obtain ⟨mover, move⟩ := move
  obtain ⟨object, present⟩ := Option.ne_none_iff_exists'.mp running.messageQueue
  dsimp only [System.step] at asleep
  split at asleep
  · rename_i place
    exact ⟨by simp [System.endsStop, place], Or.inl asleep⟩
  · -- a message: everybody is notified
    have slept := System.asleep_of_goto (by simp) asleep
    rw [System.send, present] at slept
    exact absurd slept (System.notifyAll_awake _ _)
  · rename_i place
    rw [System.stop, present] at asleep
    refine ⟨by simp [System.endsStop, place], Or.inl ?_⟩
    exact System.asleep_of_goto (by simp : Place.stopping ≠ .waiting false) asleep
  · -- the end signal: everybody is notified
    exact absurd (System.asleep_of_goto (by simp) asleep) (System.notifyAll_awake _ _)
  · rename_i place
    have looks : system.looks (mover, .receive) = true := by simp [System.looks, place]
    refine ⟨by simp [System.endsStop, place], ?_⟩
    exact (running.asleep_receive asleep).imp_right fun empty => ⟨looks, empty⟩
  · rename_i place
    have looks : system.looks (mover, .proceed) = true := by simp [System.looks, place]
    refine ⟨by simp [System.endsStop, place], ?_⟩
    exact (running.asleep_receive asleep).imp_right fun empty => ⟨looks, empty⟩
  · rename_i place
    refine ⟨by simp [System.endsStop, place], Or.inl ?_⟩
    simp only [System.tryReceive, running.dataProcess] at asleep
    exact asleep
  · rename_i notStopping _ _ _
    refine ⟨?_, Or.inl asleep⟩
    dsimp only [System.endsStop]
    split
    · simp_all
    · rfl

/-! ### All interleavings -/

theorem running_stateAfter (moves : List (Thread × Move)) : Running (stateAfter moves) :=
  (Running.run moves).1

/-- One more step in time keeps everybody awake. -/
theorem NoMissedWakeup.concat {moves : List (Thread × Move)} {move : Thread × Move}
    (awake : NoMissedWakeup moves)
    (inTime : (stateAfter moves).looks move = true →
      (stateAfter moves).statics.queue ≠ [] ∨ stopEnded System.start moves = false) :
    NoMissedWakeup (moves ++ [move]) := by
  intro thread asleep
  refine ⟨(running_stateAfter _).awake thread asleep, ?_⟩
  rw [stateAfter_concat] at asleep
  obtain ⟨noSignal, slept | ⟨looks, empty⟩⟩ := (running_stateAfter moves).asleep_step asleep
  · rw [stopEnded_concat, (awake thread slept).2]
    exact noSignal
  · rw [stopEnded_concat, (inTime looks).resolve_left fun filled => filled empty]
    exact noSignal

theorem LooksInTime.neverMissesWakeup {moves : List (Thread × Move)} (inTime : LooksInTime moves) :
    NeverMissesWakeup moves := by
  intro before inside
  induction before using List.reverseRecOn with
  | nil =>
      intro thread asleep
      simp [stateAfter, run, System.start] at asleep
  | append_singleton before move inductionHypothesis =>
      apply NoMissedWakeup.concat
      · exact inductionHypothesis ((List.prefix_append _ _).trans inside)
      · exact inTime before move inside

/-- A thread that looks at an empty queue behind an end signal sleeps there. -/
theorem NeverMissesWakeup.looksInTime {moves : List (Thread × Move)}
    (never : NeverMissesWakeup moves) : LooksInTime moves := by
  intro before move inside looks
  apply Decidable.byContradiction
  intro late
  obtain ⟨empty, signalled⟩ := not_or.mp late
  have parked := (running_stateAfter before).parks looks (Decidable.not_not.mp empty)
  rw [← stateAfter_concat] at parked
  have quiet := (never _ inside move.1 parked).2
  rw [stopEnded_concat] at quiet
  exact signalled (Bool.or_eq_false_iff.mp quiet).1

/-- For every interleaving, no wakeup is missed in any of its states exactly when
no thread looks at an empty queue behind an end signal. -/
theorem never_misses_wakeup_iff (moves : List (Thread × Move)) :
    NeverMissesWakeup moves ↔ LooksInTime moves :=
  ⟨NeverMissesWakeup.looksInTime, LooksInTime.neverMissesWakeup⟩

/-- One thread sends a message; then another receives it and asks again. -/
def askingAgain : List (Bool × Move) :=
  [(false, .sendMessage 1 []), (false, .proceed), (false, .proceed), (true, .receive),
    (true, .receive)]

theorem not_never_misses_wakeup : ¬ ∀ moves : List (Bool × Move), NeverMissesWakeup moves := by
  intro never
  have asleep : (stateAfter askingAgain).place true = .waiting false := by decide
  have signalled : stopEnded (System.start : System Bool) askingAgain = true := by decide
  have quiet := (never askingAgain askingAgain (List.prefix_refl _) true asleep).2
  rw [signalled] at quiet
  exact absurd quiet (by decide)

end KcpTest.Queue
