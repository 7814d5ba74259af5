import KcpTest.Analyser.Statistics
import KcpTest.Library.Progress
import KcpTest.Queue.Interleaving

/-!
Contract: the analyser thread behind the message queue.

Owns: `run_recv_msg_thread` as one of the threads at the queue, the invariant of
the whole, and the theorem that every interleaving amounts to the sequential
analyser on a prefix of what was sent.

Does **not** own what the analyser makes of a sequence of messages.
-/

set_option autoImplicit false

namespace KcpTest.Analyser

open KcpTest.Message KcpTest.Queue KcpTest.Library Relation

variable {Thread : Type}

/-! ### The threads -/

/-- Where the analyser thread is: at `receive`, with a message, behind the loop
after a null pointer, or ended by an exception, which ends the process. -/
inductive Stage where
  | receiving
  | holding (message : DataMessage)
  | finished
  | terminated

def Stage.held : Stage → List DataMessage
  | .holding message => [message]
  | _ => []

/-- The threads at the queue, the analyser thread among them with its locals, the
messages of all `sendMessage` calls and all messages analysed. -/
structure Pipeline (Thread : Type) where
  system : System Thread
  stage : Stage
  statistics : Statistics
  thrown : Option ConversionError
  sent : List DataMessage
  analysed : List Post

def Pipeline.start : Pipeline Thread where
  system := System.start
  stage := .receiving
  statistics := Statistics.start
  thrown := none
  sent := []
  analysed := []

/-- The moves of the other threads: the program receives in one thread only. -/
inductive Produces : Move → Prop
  | getInstance : Produces .getInstance
  | sendMessage (index : Int32) (data : Message.Bytes) : Produces (.sendMessage index data)
  | proceed : Produces .proceed

/-- The analyser after `receive`, or while this waits. -/
def Stage.after (stage : Stage) : List Event → Stage
  | [.received (some message)] => .holding message
  | [.received none] => .finished
  | _ => stage

/-- One turn of the loop with the message at hand. -/
def Pipeline.analyse (pipeline : Pipeline Thread) (message : DataMessage) (clock : Int64) :
    Pipeline Thread :=
  let post : Post := { index := message.id, data := message.data, clock := clock }
  let (statistics, thrown) := receivePost pipeline.statistics post
  { pipeline with
    stage := if thrown.isSome then .terminated else .receiving
    statistics := statistics
    thrown := thrown
    analysed := pipeline.analysed ++ [post] }

section Steps

variable [DecidableEq Thread]

/-- A step of the analyser thread, which is `consumer` at the queue. -/
inductive Pipeline.Consumes (consumer : Thread) : Pipeline Thread → Pipeline Thread → Prop
  | receive (pipeline : Pipeline Thread) (move : Move)
      (receives : move = .receive ∨ move = .proceed) (stage : pipeline.stage = .receiving) :
      Consumes consumer pipeline
        { pipeline with
          system := (pipeline.system.step (consumer, move)).1
          stage := pipeline.stage.after (pipeline.system.step (consumer, move)).2 }
  | analyse (pipeline : Pipeline Thread) (message : DataMessage) (clock : Int64)
      (stage : pipeline.stage = .holding message) :
      Consumes consumer pipeline (pipeline.analyse message clock)

/-- Such a step that needs no spurious wakeup. -/
structure Pipeline.Works (consumer : Thread) (pipeline pipeline' : Pipeline Thread) : Prop where
  consumes : Pipeline.Consumes consumer pipeline pipeline'
  awake : pipeline.stage = .receiving → pipeline.system.place consumer ≠ .waiting false

/-- A step of any thread. -/
inductive Pipeline.Step (consumer : Thread) : Pipeline Thread → Pipeline Thread → Prop
  | produce (pipeline : Pipeline Thread) (thread : Thread) (move : Move)
      (other : thread ≠ consumer) (produces : Produces move) (alive : pipeline.thrown = none) :
      Step consumer pipeline
        { pipeline with
          system := (pipeline.system.step (thread, move)).1
          sent := pipeline.sent ++ (pipeline.system.sends (thread, move)).toList }
  | consume {pipeline pipeline' : Pipeline Thread}
      (consumes : Pipeline.Consumes consumer pipeline pipeline') : Step consumer pipeline pipeline'

abbrev Pipeline.Reached (consumer : Thread) (pipeline : Pipeline Thread) : Prop :=
  ReflTransGen (Pipeline.Step consumer) Pipeline.start pipeline

end Steps

/-! ### The invariant -/

def Post.message (post : Post) : DataMessage := { id := post.index, data := post.data }

/-- Only the analyser waits in `receive`, and it is nowhere else in the queue. -/
structure Roles (consumer : Thread) (system : System Thread) : Prop where
  analyser : system.place consumer = .outside ∨ ∃ flag, system.place consumer = .waiting flag
  others : ∀ thread, thread ≠ consumer → ∀ flag, system.place thread ≠ .waiting flag

/-- What was sent is analysed, at hand or queued, in this order, and what was
analysed made the statistics. -/
structure Flows (consumer : Thread) (pipeline : Pipeline Thread) : Prop where
  running : Running pipeline.system
  roles : Roles consumer pipeline.system
  conserved : pipeline.analysed.map Post.message ++ pipeline.stage.held ++
    pipeline.system.statics.queue = pipeline.sent
  statistics : runPosts Statistics.start pipeline.analysed =
    (pipeline.statistics, pipeline.thrown)
  terminated : pipeline.stage = .terminated ↔ pipeline.thrown ≠ none
  unfinished : pipeline.stage ≠ .finished

theorem Flows.start (consumer : Thread) : Flows consumer (Pipeline.start : Pipeline Thread) where
  running := Running.start
  roles :=
    { analyser := Or.inl rfl
      others := by simp [Pipeline.start, System.start] }
  conserved := rfl
  statistics := rfl
  terminated := by simp [Pipeline.start]
  unfinished := by simp [Pipeline.start]

theorem runPosts_concat {st st' : Statistics} {posts : List Post}
    (through : runPosts st posts = (st', none)) (post : Post) :
    runPosts st (posts ++ [post]) = receivePost st' post := by
  induction posts generalizing st with
  | nil =>
      obtain ⟨rfl, -⟩ := Prod.mk.inj through
      rw [List.nil_append, runPosts]
      rcases receivePost st post with ⟨after, thrown | thrown⟩ <;> rfl
  | cons first posts inductionHypothesis =>
      cases turn : receivePost st first with
      | mk after thrown =>
          cases thrown with
          | none =>
              simp only [List.cons_append, runPosts, turn] at through ⊢
              exact inductionHypothesis through
          | some thrown => simp [runPosts, turn] at through

section Steps

variable [DecidableEq Thread] {consumer : Thread}

omit [DecidableEq Thread] in
theorem Roles.notifyAll {system : System Thread} (roles : Roles consumer system) :
    Roles consumer system.notifyAll where
  analyser := by
    rcases roles.analyser with outside | ⟨flag, waiting⟩
    · left
      show (system.place consumer).notify = _
      rw [outside]
      rfl
    · right
      refine ⟨true, ?_⟩
      show (system.place consumer).notify = _
      rw [waiting]
      rfl
  others := by
    intro thread other flag
    show (system.place thread).notify ≠ _
    have elsewhere := roles.others thread other
    cases place : system.place thread with
    | waiting flag' => exact absurd place (elsewhere flag')
    | outside => simp [Place.notify]
    | sent => simp [Place.notify]
    | stopping => simp [Place.notify]

theorem Roles.goto {system : System Thread} (roles : Roles consumer system) {thread : Thread}
    {place : Place}
    (allowed : if thread = consumer then place = .outside ∨ ∃ flag, place = .waiting flag
      else ∀ flag, place ≠ .waiting flag) : Roles consumer (system.goto thread place) where
  analyser := by
    show (if consumer = thread then place else system.place consumer) = _ ∨
      ∃ flag, (if consumer = thread then place else system.place consumer) = _
    by_cases same : thread = consumer
    · rw [if_pos same] at allowed
      rw [if_pos same.symm]
      exact allowed
    · rw [if_neg (Ne.symm same)]
      exact roles.analyser
  others := by
    intro other different flag
    show (if other = thread then place else system.place other) ≠ _
    by_cases same : other = thread
    · rw [if_pos same]
      rw [← same, if_neg different] at allowed
      exact allowed flag
    · rw [if_neg same]
      exact roles.others other different flag

omit [DecidableEq Thread] in
/-- Only the places count. -/
theorem Roles.congr {system system' : System Thread} (roles : Roles consumer system)
    (same : system'.place = system.place) : Roles consumer system' where
  analyser := same ▸ roles.analyser
  others := same ▸ roles.others

/-- A producer hands nothing out and does not wait. -/
theorem Roles.produce {system : System Thread} (roles : Roles consumer system)
    {thread : Thread} (other : thread ≠ consumer) {move : Move} (produces : Produces move) :
    Roles consumer (system.step (thread, move)).1 ∧
      (system.step (thread, move)).2.filterMap Event.handedOut = [] := by
  have elsewhere := roles.others thread other
  have free : ∀ {system : System Thread} {place : Place}, Roles consumer system →
      (∀ flag, place ≠ .waiting flag) → Roles consumer (system.goto thread place) := by
    intro system place roles apart
    apply roles.goto
    rw [if_neg other]
    exact apart
  cases place : system.place thread with
  | waiting flag => exact absurd place (elsewhere flag)
  | outside =>
      cases produces with
      | getInstance =>
          simp only [System.step, place]
          exact ⟨roles.congr rfl, rfl⟩
      | sendMessage index data =>
          simp only [System.step, place, System.send]
          split
          · exact ⟨free roles (by simp), rfl⟩
          · refine ⟨free ?_ (by simp), rfl⟩
            apply Roles.notifyAll
            exact roles.congr rfl
      | proceed =>
          simp only [System.step, place]
          exact ⟨roles, rfl⟩
  | sent =>
      cases produces with
      | proceed =>
          simp only [System.step, place, System.stop]
          split
          · exact ⟨roles, rfl⟩
          · exact ⟨free (roles.congr rfl) (by simp), rfl⟩
      | getInstance =>
          simp only [System.step, place]
          exact ⟨roles, rfl⟩
      | sendMessage index data =>
          simp only [System.step, place]
          exact ⟨roles, rfl⟩
  | stopping =>
      cases produces with
      | proceed =>
          simp only [System.step, place]
          exact ⟨free roles.notifyAll (by simp), rfl⟩
      | getInstance =>
          simp only [System.step, place]
          exact ⟨roles, rfl⟩
      | sendMessage index data =>
          simp only [System.step, place]
          exact ⟨roles, rfl⟩

/-- `receive` waits beside an empty queue and takes the front of any other. -/
theorem receive_cases {system : System Thread} (running : Running system)
    (thread : Thread) :
    (system.statics.queue = [] ∧
        system.receive thread = (system.goto thread (.waiting false), [])) ∨
      ∃ (message : DataMessage) (taken : System Thread),
        system.statics.queue = message :: taken.statics.queue ∧ taken.place = system.place ∧
        system.receive thread = (taken.goto thread .outside, [.received (some message)]) := by
  unfold System.receive
  rw [running.dataProcess]
  cases contents : system.statics.queue with
  | nil => exact Or.inl ⟨rfl, rfl⟩
  | cons message rest =>
      exact Or.inr
        ⟨message, { system with statics := { system.statics with queue := rest } }, rfl, rfl, rfl⟩

/-- The analyser thread looks at the queue, or is not ready. -/
theorem Roles.consume {system : System Thread} (roles : Roles consumer system) {move : Move}
    (receives : move = .receive ∨ move = .proceed) :
    system.step (consumer, move) = (system, []) ∨
      system.step (consumer, move) = system.receive consumer := by
  rcases roles.analyser with place | ⟨flag, place⟩
  · rcases receives with rfl | rfl
    · exact Or.inr (by simp only [System.step, place])
    · exact Or.inl (by simp only [System.step, place])
  · rcases receives with rfl | rfl
    · exact Or.inl (by simp only [System.step, place])
    · exact Or.inr (by simp only [System.step, place])

/-! ### One step -/

theorem Flows.produce {pipeline : Pipeline Thread} (flows : Flows consumer pipeline)
    {thread : Thread} (other : thread ≠ consumer) {move : Move} (produces : Produces move) :
    Flows consumer
      { pipeline with
        system := (pipeline.system.step (thread, move)).1
        sent := pipeline.sent ++ (pipeline.system.sends (thread, move)).toList } := by
  obtain ⟨roles, nothing⟩ := flows.roles.produce other produces
  obtain ⟨running, effect⟩ := flows.running.step (thread, move)
  have moves := effect.moves
  rw [nothing, List.nil_append, effect.pushes] at moves
  exact
    { flows with
      running := running
      roles := roles
      conserved := by
        show _ ++ (pipeline.system.step (thread, move)).1.statics.queue = _
        rw [moves, ← List.append_assoc, flows.conserved] }

theorem Flows.receive {pipeline : Pipeline Thread} (flows : Flows consumer pipeline)
    (stage : pipeline.stage = .receiving) {move : Move}
    (receives : move = .receive ∨ move = .proceed) :
    Flows consumer
      { pipeline with
        system := (pipeline.system.step (consumer, move)).1
        stage := pipeline.stage.after (pipeline.system.step (consumer, move)).2 } := by
  have running := (flows.running.step (consumer, move)).1
  have conserved := flows.conserved
  have through := flows.terminated
  rw [stage] at conserved through
  rcases flows.roles.consume receives with same | looks
  · rw [same]
    exact { flows with }
  · rw [looks] at running ⊢
    rcases receive_cases flows.running consumer with
      ⟨empty, waits⟩ | ⟨message, taken, front, place, takes⟩
    · rw [waits] at running ⊢
      exact
        { flows with
          running := running
          roles := flows.roles.goto (by simp) }
    · rw [takes] at running ⊢
      rw [front] at conserved
      exact
        { statistics := flows.statistics
          running := running
          roles := (flows.roles.congr place).goto (by simp)
          conserved := by
            rw [← conserved]
            simp [Stage.after, Stage.held, System.goto]
          terminated := by simpa [Stage.after] using through
          unfinished := by simp [Stage.after] }

omit [DecidableEq Thread] in
theorem Flows.analyse {pipeline : Pipeline Thread} (flows : Flows consumer pipeline)
    {message : DataMessage} (stage : pipeline.stage = .holding message) (clock : Int64) :
    Flows consumer (pipeline.analyse message clock) := by
  have alive : pipeline.thrown = none := by
    by_contra threw
    have ended := flows.terminated.mpr threw
    rw [stage] at ended
    simp at ended
  have statistics := flows.statistics
  rw [alive] at statistics
  have next := runPosts_concat statistics
    { index := message.id, data := message.data, clock := clock }
  have conserved := flows.conserved
  rw [stage] at conserved
  simp only [Pipeline.analyse]
  generalize receivePost pipeline.statistics _ = turn at next ⊢
  exact
    { running := flows.running
      roles := flows.roles
      conserved := by
        rw [← conserved]
        simp only [List.map_append, List.append_assoc]
        split <;> rfl
      statistics := next
      terminated := by
        cases turn.2 <;> simp
      unfinished := by
        show (if _ then Stage.terminated else Stage.receiving) ≠ Stage.finished
        split <;> simp }

theorem Pipeline.Consumes.flows {pipeline pipeline' : Pipeline Thread}
    (consumes : Pipeline.Consumes consumer pipeline pipeline') (flows : Flows consumer pipeline) :
    Flows consumer pipeline' := by
  cases consumes with
  | receive move receives stage => exact flows.receive stage receives
  | analyse message clock stage => exact flows.analyse stage clock

theorem Pipeline.Reached.flows {pipeline : Pipeline Thread}
    (reached : pipeline.Reached consumer) : Flows consumer pipeline := by
  have step : ∀ before after : Pipeline Thread, Pipeline.Step consumer before after →
      Flows consumer before → Flows consumer after := by
    intro before after step flows
    cases step with
    | produce thread move other produces alive => exact flows.produce other produces
    | consume consumes => exact consumes.flows flows
  exact Progress.keeps_of_run step reached (Flows.start consumer)

/-! ### Draining the queue -/

/-- All that was sent is analysed, or the process has ended. -/
def Pipeline.Drained (pipeline : Pipeline Thread) : Prop :=
  pipeline.thrown ≠ none ∨ pipeline.analysed.map Post.message = pipeline.sent

/-- What the analyser thread still has to do. -/
def Pipeline.left (pipeline : Pipeline Thread) : ℕ :=
  2 * pipeline.system.statics.queue.length + pipeline.stage.held.length

/-- Beside a queue that is not empty the analyser thread is awake, and takes its
front. -/
theorem Flows.takes {pipeline : Pipeline Thread} (flows : Flows consumer pipeline)
    (stage : pipeline.stage = .receiving) (some' : pipeline.system.statics.queue ≠ []) :
    ∃ pipeline', Pipeline.Works consumer pipeline pipeline' ∧ pipeline'.left < pipeline.left := by
  have awake : pipeline.system.place consumer ≠ .waiting false :=
    fun sleeps => some' (flows.running.awake consumer sleeps)
  have ready : ∃ move : Move, (move = .receive ∨ move = .proceed) ∧
      pipeline.system.step (consumer, move) = pipeline.system.receive consumer := by
    rcases flows.roles.analyser with place | ⟨flag, place⟩
    · exact ⟨.receive, Or.inl rfl, by simp only [System.step, place]⟩
    · exact ⟨.proceed, Or.inr rfl, by simp only [System.step, place]⟩
  obtain ⟨move, receives, looks⟩ := ready
  refine ⟨_, ⟨Pipeline.Consumes.receive pipeline move receives stage, fun _ => awake⟩, ?_⟩
  rcases receive_cases flows.running consumer with
    ⟨empty, -⟩ | ⟨message, taken, front, place, takes⟩
  · exact absurd empty some'
  · rw [looks, takes]
    simp only [Pipeline.left, Stage.after, Stage.held, System.goto, stage, front,
      List.length_cons, List.length_nil]
    omega

theorem Flows.advances (clock : Int64) :
    Progress.Advances (Pipeline.Works consumer) (Flows consumer : Pipeline Thread → Prop)
      Pipeline.Drained Pipeline.left := by
  intro pipeline flows undrained
  rw [Pipeline.Drained, not_or, not_not] at undrained
  obtain ⟨alive, waiting⟩ := undrained
  have conserved := flows.conserved
  cases stage : pipeline.stage with
  | finished => exact absurd stage flows.unfinished
  | terminated => exact absurd alive (flows.terminated.mp stage)
  | holding message =>
      have works : Pipeline.Works consumer pipeline (pipeline.analyse message clock) :=
        ⟨Pipeline.Consumes.analyse pipeline message clock stage, by simp [stage]⟩
      refine ⟨_, ReflTransGen.single works, works.consumes.flows flows, ?_⟩
      have none' : (pipeline.analyse message clock).stage.held = [] := by
        simp only [Pipeline.analyse]
        split <;> rfl
      rw [Pipeline.left, Pipeline.left, none', stage]
      exact Nat.lt_succ_self _
  | receiving =>
      rw [stage] at conserved
      have some' : pipeline.system.statics.queue ≠ [] := by
        intro empty
        rw [empty] at conserved
        exact waiting (by simpa [Stage.held] using conserved)
      obtain ⟨pipeline', works, fewer⟩ := flows.takes stage some'
      exact ⟨pipeline', ReflTransGen.single works, works.consumes.flows flows, fewer⟩

theorem Consumes.sent {pipeline pipeline' : Pipeline Thread}
    (consumes : Pipeline.Consumes consumer pipeline pipeline') :
    pipeline'.sent = pipeline.sent := by
  cases consumes <;> rfl

/-! ### The pipeline -/

/-- The whole is the sequential analyser on a prefix of what was sent, and the
analyser thread alone can always make that everything. -/
structure Sequential (consumer : Thread) (pipeline : Pipeline Thread) : Prop where
  order : pipeline.analysed.map Post.message ++ pipeline.stage.held ++
    pipeline.system.statics.queue = pipeline.sent
  statistics : runPosts Statistics.start pipeline.analysed =
    (pipeline.statistics, pipeline.thrown)
  unfinished : pipeline.stage ≠ .finished
  drains : ∃ pipeline', ReflTransGen (Pipeline.Works consumer) pipeline pipeline' ∧
    pipeline'.sent = pipeline.sent ∧ pipeline'.Drained

/-- In every interleaving of producers and the analyser thread, the statistics and
reports are those of the sequential analyser on the first messages sent, each
once and in order; the analyser never takes the end signal of `sendMessage` for
the end, and it can always get to all messages that wait, or to one that throws. -/
theorem pipeline_sequential (consumer : Thread) (pipeline : Pipeline Thread)
    (reached : pipeline.Reached consumer) : Sequential consumer pipeline := by
  have flows := reached.flows
  refine
    { order := flows.conserved
      statistics := flows.statistics
      unfinished := flows.unfinished
      drains := ?_ }
  obtain ⟨pipeline', run, -, drained⟩ := (Flows.advances 0).reaches pipeline flows
  refine ⟨pipeline', run, ?_, drained⟩
  have kept : ∀ before after : Pipeline Thread, Pipeline.Works consumer before after →
      before.sent = pipeline.sent → after.sent = pipeline.sent :=
    fun before after works same => (Consumes.sent works.consumes).trans same
  exact Progress.keeps_of_run kept run rfl

/-- What `sendMessage` has done to the queue with two messages. -/
def posted : System Bool :=
  (Fifo.run System.step System.start
    [(false, .sendMessage 7 (ascii "42")), (false, .proceed), (false, .proceed),
      (false, .sendMessage 8 (ascii "43"))]).1

theorem pipeline_sequential_two :
    Sequential true
      { (Pipeline.start : Pipeline Bool) with
        system := (posted.step (true, .receive)).1
        stage := .holding { id := 7, data := ascii "42" }
        sent := [{ id := 7, data := ascii "42" }, { id := 8, data := ascii "43" }] } := by
  have first : Pipeline.Reached true _ := ReflTransGen.single
    (Pipeline.Step.produce Pipeline.start false (.sendMessage 7 (ascii "42")) (by decide)
      (Produces.sendMessage _ _) rfl)
  have stopped := first.tail
    (Pipeline.Step.produce _ false .proceed (by decide) Produces.proceed rfl)
  have told := stopped.tail
    (Pipeline.Step.produce _ false .proceed (by decide) Produces.proceed rfl)
  have second := told.tail
    (Pipeline.Step.produce _ false (.sendMessage 8 (ascii "43")) (by decide)
      (Produces.sendMessage _ _) rfl)
  have received := second.tail
    (Pipeline.Step.consume (Pipeline.Consumes.receive _ .receive (Or.inl rfl) rfl))
  exact pipeline_sequential true _ received

end Steps

end KcpTest.Analyser
