import KcpTest.Library.Fifo
import KcpTest.Queue.MessageQueue

/-!
Contract: all interleavings of the threads at the message queue.

Owns: the invariant of the two flags, the effect of each step on the queue, and
the theorem that no message given to `sendMessage` is lost, repeated, reordered or
cut off by `stop`.
-/

set_option autoImplicit false

namespace KcpTest.Queue

open KcpTest.Library KcpTest.Library.Fifo

variable {Thread : Type}

/-- `stop` reaches only the object behind `messageQueue`, and a thread sleeps
only while the queue is empty. -/
structure Running (system : System Thread) : Prop where
  dataProcess : system.statics.dataProcess = some { stopped := false }
  messageQueue : system.statics.messageQueue ≠ none
  awake : ∀ thread, system.place thread = .waiting false → system.statics.queue = []

theorem Running.start : Running (System.start : System Thread) where
  dataProcess := rfl
  messageQueue := by simp [System.start, Statics.getInstance]
  awake := fun _ _ => rfl

/-- What a step may report. -/
inductive Event.Allowed : Event → Prop
  | pushed (message : DataMessage) : Event.Allowed (.pushed message)
  | received (message : DataMessage) : Event.Allowed (.received (some message))
  | tried (result : Option DataMessage) : Event.Allowed (.tried result)

/-- Everything a step can do to the queue, given the message it is to send, with
what it reports. -/
inductive Effect (queue : List DataMessage) :
    Option DataMessage → List DataMessage → List Event → Prop
  | none : Effect queue Option.none queue []
  | pushed (message : DataMessage) :
      Effect queue (some message) (queue ++ [message]) [.pushed message]
  | received (message : DataMessage) (rest : List DataMessage) (front : queue = message :: rest) :
      Effect queue Option.none rest [.received (some message)]
  | tried (message : DataMessage) (rest : List DataMessage) (front : queue = message :: rest) :
      Effect queue Option.none rest [.tried (some message)]
  | tryEmpty (empty : queue = []) : Effect queue Option.none queue [.tried Option.none]

section Effects

variable {queue queue' : List DataMessage} {sends : Option DataMessage} {events : List Event}

theorem Effect.allowed (effect : Effect queue sends queue' events) :
    ∀ event ∈ events, event.Allowed := by
  cases effect with
  | none => simp
  | pushed message => simpa using Event.Allowed.pushed message
  | received message rest front => simpa using Event.Allowed.received message
  | tried message rest front => simpa using Event.Allowed.tried (some message)
  | tryEmpty empty => simpa using Event.Allowed.tried Option.none

/-- A step pushes the message it is to send, and no other. -/
theorem Effect.pushes (effect : Effect queue sends queue' events) :
    events.filterMap Event.push = sends.toList := by
  cases effect <;> rfl

theorem Effect.moves (effect : Effect queue sends queue' events) :
    events.filterMap Event.handedOut ++ queue' = queue ++ events.filterMap Event.push := by
  cases effect with
  | none => simp
  | pushed message => simp [Event.handedOut, Event.push]
  | received message rest front => simp [Event.handedOut, Event.push, front]
  | tried message rest front => simp [Event.handedOut, Event.push, front]
  | tryEmpty empty => simp [List.filterMap_cons, Event.handedOut, Event.push]

end Effects

/-! ### Single moves -/

theorem Place.notify_ne (place : Place) : place.notify ≠ .waiting false := by
  cases place <;> simp [Place.notify]

/-- After a notification nobody sleeps, whatever was done to the queue. -/
theorem Running.notifyAll {system : System Thread}
    (dataProcess : system.statics.dataProcess = some { stopped := false })
    (messageQueue : system.statics.messageQueue ≠ none) : Running system.notifyAll where
  dataProcess := dataProcess
  messageQueue := messageQueue
  awake := fun thread sleeps => absurd sleeps (Place.notify_ne (system.place thread))

/-- A queue that only shrinks from the front keeps the sleepers' condition. -/
theorem Running.shrink {system : System Thread} (running : Running system)
    (queue : List DataMessage) (shorter : system.statics.queue = [] → queue = []) :
    Running { system with statics := { system.statics with queue := queue } } where
  dataProcess := running.dataProcess
  messageQueue := running.messageQueue
  awake := fun thread sleeps => shorter (running.awake thread sleeps)

theorem Running.tryReceive {system : System Thread} (running : Running system) :
    Running system.tryReceive.1 ∧
      Effect system.statics.queue none system.tryReceive.1.statics.queue system.tryReceive.2 := by
  unfold System.tryReceive
  rw [running.dataProcess]
  cases contents : system.statics.queue with
  | nil => exact ⟨running.shrink [] fun _ => rfl, Effect.tryEmpty rfl⟩
  | cons message rest =>
      exact ⟨running.shrink rest (by simp [contents]), Effect.tried message rest rfl⟩

theorem Running.getInstance {system : System Thread} (running : Running system) :
    Running { system with statics := system.statics.getInstance } where
  dataProcess := by simp [Statics.getInstance, running.dataProcess]
  messageQueue := by simp [Statics.getInstance]
  awake := running.awake

variable [DecidableEq Thread]

theorem Running.goto {system : System Thread} (running : Running system) (thread : Thread)
    (place : Place) (stays : place = .waiting false → system.statics.queue = []) :
    Running (system.goto thread place) where
  dataProcess := running.dataProcess
  messageQueue := running.messageQueue
  awake := by
    intro other sleeps
    have asleep : (if other = thread then place else system.place other) = .waiting false :=
      sleeps
    split at asleep
    · exact stays asleep
    · exact running.awake other asleep

/-- On the instance, whose flag is never set, `receive` waits at an empty queue
and hands out the front of any other. -/
theorem Running.receive {system : System Thread} (running : Running system) (thread : Thread) :
    Running (system.receive thread).1 ∧
      Effect system.statics.queue none (system.receive thread).1.statics.queue
        (system.receive thread).2 := by
  unfold System.receive
  rw [running.dataProcess]
  cases contents : system.statics.queue with
  | nil =>
      have sleeping := running.goto thread (.waiting false) fun _ => contents
      refine ⟨sleeping, ?_⟩
      simpa [MessageQueue.receive, System.goto, contents] using Effect.none
  | cons message rest =>
      have shorter := running.shrink rest (by simp [contents])
      exact ⟨shorter.goto thread .outside (by simp), Effect.received message rest rfl⟩

theorem Running.send {system : System Thread} (running : Running system) (thread : Thread)
    (message : DataMessage) :
    Running ((system.send message).1.goto thread .sent) ∧
      Effect system.statics.queue (some message) (system.send message).1.statics.queue
        (system.send message).2 := by
  obtain ⟨object, present⟩ := Option.ne_none_iff_exists'.mp running.messageQueue
  unfold System.send
  rw [present]
  let sent : System Thread :=
    { system with statics := { system.statics with queue := system.statics.queue ++ [message] } }
  have woken : Running sent.notifyAll :=
    Running.notifyAll running.dataProcess running.messageQueue
  exact ⟨woken.goto thread .sent (by simp), Effect.pushed message⟩

theorem Running.stop {system : System Thread} (running : Running system) (thread : Thread) :
    Running (system.stop thread) ∧ (system.stop thread).statics.queue = system.statics.queue := by
  obtain ⟨object, present⟩ := Option.ne_none_iff_exists'.mp running.messageQueue
  simp only [System.stop, present]
  refine ⟨Running.goto ?_ thread .stopping (by simp), rfl⟩
  exact ⟨running.dataProcess, by simp, running.awake⟩

/-! ### All interleavings -/

theorem Running.step {system : System Thread} (running : Running system)
    (move : Thread × Move) :
    Running (system.step move).1 ∧
      Effect system.statics.queue (system.sends move) (system.step move).1.statics.queue
        (system.step move).2 := by
  obtain ⟨thread, move⟩ := move
  dsimp only [System.step]
  split
  · exact ⟨running.getInstance, Effect.none⟩
  · rename_i index data outside
    rw [System.sends, if_pos outside]
    exact running.send thread _
  · obtain ⟨running', same⟩ := running.stop thread
    exact ⟨running', same ▸ Effect.none⟩
  · exact ⟨(Running.notifyAll running.dataProcess running.messageQueue).goto thread .outside
      (by simp),
      Effect.none⟩
  · exact running.receive thread
  · exact running.receive thread
  · exact running.tryReceive
  · rename_i given _ _ _ notSend _ _ _ _ _
    have nothing : system.sends (thread, given) = none := by
      cases given with
      | sendMessage index data => exact if_neg fun outside => notSend index data outside rfl
      | _ => rfl
    exact ⟨running, nothing ▸ Effect.none⟩

theorem queues : Queues (@System.step Thread _) Running
    (fun system => system.statics.queue) Event.push Event.handedOut where
  preserved := fun _ move running => (running.step move).1
  moves := fun _ move running => (running.step move).2.moves

theorem Running.run (moves : List (Thread × Move)) :
    Running (Fifo.run System.step (System.start : System Thread) moves).1 ∧
      ∀ event ∈ (Fifo.run System.step (System.start : System Thread) moves).2, event.Allowed := by
  apply run_induction
  · intro system move running
    exact (running.step move).1
  · intro system move running
    exact (running.step move).2.allowed
  · exact Running.start

/-- No wakeup is lost: in every interleaving a thread sleeps only beside an empty
queue. -/
theorem asleep_only_if_empty (moves : List (Thread × Move)) (thread : Thread) :
    let last := (run System.step (System.start : System Thread) moves).1
    last.place thread = .waiting false → last.statics.queue = [] :=
  (Running.run moves).1.awake thread

/-- In every interleaving, each `sendMessage` that a thread makes pushes its
message, and nothing else does; the messages handed out and then those in the queue
are these messages, in order; and `receive` never answers with a null pointer. -/
theorem messages_conserved (moves : List (Thread × Move)) :
    let last := run System.step (System.start : System Thread) moves
    let sent := asked System.step System.sends (System.start : System Thread) moves
    last.2.filterMap Event.push = sent ∧
      last.2.filterMap Event.handedOut ++ last.1.statics.queue = sent ∧
      Event.received none ∉ last.2 ∧ Event.notPushed ∉ last.2 := by
  intro last sent
  have conserved : last.2.filterMap Event.handedOut ++ last.1.statics.queue =
      last.2.filterMap Event.push := queues.conserves Running.start moves
  have pushed : last.2.filterMap Event.push = sent :=
    put_eq_asked queues.preserved (fun _ move running => (running.step move).2.pushes)
      Running.start moves
  have allowed := (Running.run moves).2
  refine ⟨pushed, conserved.trans pushed, ?_, ?_⟩
  · intro answered
    cases allowed _ answered
  · intro skipped
    cases allowed _ skipped

end KcpTest.Queue
