import KcpTest.Endpoint.Exchange
import KcpTest.Endpoint.Loop
import KcpTest.Library.Progress
import KcpTest.Message.Original

/-!
Contract: the threads of the program that `start_kcp` starts.

Owns: the loop of `test_kcp_send` and the loop of `run_udp_thread` as one step
relation, in which the two threads interleave; when `test_kcp_send` posts which
message; and that its inner loop ends.

Each call into KCP is one atomic step, a whole `kcpSend` included. Does **not** own
what two threads do to one control block at the same time, for which the source
has no lock.
-/

set_option autoImplicit false

namespace KcpTest.Endpoint

open KcpTest.Kcp KcpTest.Message KcpTest.Library Relation

/-! ### The loop of `test_kcp_send` -/

/-- The variables of the loop, every clock it has read in it, and every message
it has passed to `kcpSend`. `started` is the clock in front of the loop. -/
structure Pacer where
  started : Int64
  current : Int64
  slap : Int64
  index : Int64
  readings : List Int64
  posted : List Message.Bytes

def Pacer.start (clock : Int64) : Pacer where
  started := clock
  current := clock
  slap := clock + 20
  index := 0
  readings := []
  posted := []

/-- The condition of the inner loop. -/
def Pacer.Due (pacer : Pacer) : Prop := pacer.slap ≤ pacer.current

instance (pacer : Pacer) : Decidable pacer.Due :=
  inferInstanceAs (Decidable (pacer.slap ≤ pacer.current))

/-- The next round of the outer loop. -/
def Pacer.read (pacer : Pacer) (clock : Int64) : Pacer :=
  { pacer with current := clock, readings := pacer.readings ++ [clock] }

/-- The message of a round of the inner loop. -/
def Pacer.message (pacer : Pacer) : Message.Bytes :=
  originalBytes pacer.index pacer.current

def Pacer.post (pacer : Pacer) : Pacer :=
  { pacer with
    slap := pacer.slap + 20
    index := pacer.index + 1
    posted := pacer.posted ++ [pacer.message] }

/-- A round of the inner loop. -/
inductive Pacer.Round : Pacer → Pacer → Prop
  | post (pacer : Pacer) (due : pacer.Due) : Round pacer pacer.post

/-! ### The threads of one process -/

/-- Where the receive thread is. An exception that leaves it ends the process. -/
inductive Place where
  | update
  | recvfrom
  | recv
  | reply (text : Message.Bytes)
  | terminated
  deriving DecidableEq

/-- A process: its endpoint, its receive thread, the pairs this has passed to
`DataProcess::sendMessage`, and its main thread if it runs `test_kcp_send`. -/
structure Process where
  peer : Peer
  place : Place
  passed : List (Int32 × Message.Bytes)
  pacer : Option Pacer

def Process.server : Process where
  peer := Peer.start
  place := .update
  passed := []
  pacer := none

def Process.client (clock : Int64) : Process :=
  { Process.server with pacer := some (Pacer.start clock) }

/-- A message with its own length as its length argument. -/
def sendOf (text : Message.Bytes) (before after : Int64) : Call :=
  .send text (Int32.ofNat text.length) before after

/-- `ikcp_recv` with `recv_len`, and what is done with the message. `beyond` is
the memory behind `rcv_buf`. -/
def Process.receive (process : Process) (beyond : Message.Bytes) : Process :=
  let recvLen : Int32 := 0
  let got := ikcpRecv process.peer.kcp recvLen
  let process := { process with peer := process.peer.call (.recv recvLen), place := .update }
  if got.ret ≥ 0 then
    match handle (rcvBufString got.data beyond) with
    | .ok (.reply text) => { process with place := .reply text }
    | .ok (.sendMessage index data) =>
        { process with passed := process.passed ++ [(index, data)] }
    | .ok .malformed => process
    | .error _ => { process with place := .terminated }
  else process

/-- One step of either thread, while the other end has emitted `wire`. A call into
KCP is one step, and so is `kcpSend` with the three calls it makes. -/
inductive Process.Step (wire : List Datagram) : Process → Process → Prop
  | update (process : Process) (clock : Int64) (place : process.place = .update) :
      Step wire process
        { process with
          peer := process.peer.call (.update (clock32 clock))
          place := .recvfrom }
  | silent (process : Process) (place : process.place = .recvfrom) :
      Step wire process { process with place := .update }
  | input (process : Process) (datagram : Datagram) (place : process.place = .recvfrom)
      (arrives : datagram ∈ wire) (filled : 0 < (datagram.take 2048).length) :
      Step wire process
        { process with
          peer := process.peer.call (.input (datagram.take 2048))
          place :=
            if (ikcpInput process.peer.kcp (datagram.take 2048)).1 < 0 then .update else .recv }
  | recv (process : Process) (beyond : Message.Bytes) (place : process.place = .recv) :
      Step wire process (process.receive beyond)
  | reply (process : Process) (text : Message.Bytes) (before after : Int64)
      (place : process.place = .reply text) :
      Step wire process
        { process with peer := process.peer.call (sendOf text before after), place := .update }
  | read (process : Process) (pacer : Pacer) (clock : Int64) (paced : process.pacer = some pacer)
      (alive : process.place ≠ .terminated) (ended : ¬ pacer.Due) :
      Step wire process
        { process with
          peer := process.peer.call (.update (clock32 clock))
          pacer := some (pacer.read clock) }
  | post (process : Process) (pacer : Pacer) (before after : Int64)
      (paced : process.pacer = some pacer) (alive : process.place ≠ .terminated)
      (due : pacer.Due) :
      Step wire process
        { process with
          peer := process.peer.call (sendOf pacer.message before after)
          pacer := some pacer.post }

/-- From `ikcp_recv` on. -/
theorem Process.receives (wire : List Datagram) (process : Process) (it : Iteration)
    (place : process.place = .recv) :
    ∃ process', ReflTransGen (Process.Step wire) process process' ∧
      process'.peer.kcp = (receiveMessage process.peer.kcp it).kcp ∧
      process'.peer.wire = process.peer.wire ++ (receiveMessage process.peer.kcp it).output := by
  have receiving : ReflTransGen (Process.Step wire) process (process.receive it.beyond) :=
    ReflTransGen.single (Process.Step.recv process it.beyond place)
  by_cases returned : (ikcpRecv process.peer.kcp 0).ret ≥ 0
  · cases action : handle (rcvBufString (ikcpRecv process.peer.kcp 0).data it.beyond) with
    | error thrown =>
        refine ⟨_, receiving, ?_, ?_⟩ <;>
          simp [Process.receive, receiveMessage, dispatch, returned, action, Peer.call, Call.run]
    | ok act =>
        cases act with
        | malformed =>
            refine ⟨_, receiving, ?_, ?_⟩ <;>
              simp [Process.receive, receiveMessage, dispatch, returned, action, Peer.call,
                Call.run]
        | sendMessage index data =>
            refine ⟨_, receiving, ?_, ?_⟩ <;>
              simp [Process.receive, receiveMessage, dispatch, returned, action, Peer.call,
                Call.run]
        | reply text =>
            have replying : (process.receive it.beyond).place = .reply text := by
              simp [Process.receive, returned, action]
            refine ⟨_, receiving.tail (Process.Step.reply _ text it.before it.after replying),
              ?_, ?_⟩ <;>
              simp [Process.receive, receiveMessage, dispatch, returned, action, Peer.call,
                Call.run, sendOf]
  · refine ⟨_, receiving, ?_, ?_⟩ <;>
      simp [Process.receive, receiveMessage, returned, Peer.call, Call.run]

/-- An iteration of `run_udp_thread` that no other thread interrupts is a run of
these steps. -/
theorem Process.iterates (wire : List Datagram) (process : Process) (it : Iteration)
    (place : process.place = .update)
    (arrives : ∀ datagram, it.datagram = some datagram → datagram ∈ wire) :
    ∃ process', ReflTransGen (Process.Step wire) process process' ∧
      process'.peer.kcp = (loopIteration process.peer.kcp it).kcp ∧
      process'.peer.wire = process.peer.wire ++ (loopIteration process.peer.kcp it).output := by
  have updating : ReflTransGen (Process.Step wire) process
      { process with
        peer := process.peer.call (.update (clock32 it.clock))
        place := .recvfrom } :=
    ReflTransGen.single (Process.Step.update process it.clock place)
  by_cases filled : ((it.datagram.getD []).take 2048).length > 0
  · cases datagram : it.datagram with
    | none =>
        rw [datagram] at filled
        exact absurd filled (by decide)
    | some bytes =>
        rw [datagram, Option.getD_some] at filled
        have inputting := updating.tail
          (Process.Step.input _ bytes rfl (arrives bytes datagram) filled)
        by_cases refused : (ikcpInput (ikcpUpdate process.peer.kcp (clock32 it.clock)).1
            (bytes.take 2048)).1 < 0
        · refine ⟨_, inputting, ?_, ?_⟩ <;>
            simp only [loopIteration, datagram, Option.getD_some, if_pos filled, if_pos refused,
              Peer.call, Call.run, List.append_nil]
        · generalize input : (Process.mk _ _ _ _) = arrived at inputting
          have reading : arrived.place = .recv := input ▸ if_neg refused
          obtain ⟨process', receiving, kcp, emitted⟩ := arrived.receives wire it reading
          rw [← input] at kcp emitted
          refine ⟨process', inputting.trans receiving, ?_, ?_⟩
          · rw [kcp]
            simp only [loopIteration, datagram, Option.getD_some, if_pos filled, if_neg refused]
            rfl
          · rw [emitted]
            simp only [loopIteration, datagram, Option.getD_some, if_pos filled, if_neg refused,
              Peer.call, Call.run, List.append_nil, List.append_assoc]
  · refine ⟨_, updating.tail (Process.Step.silent _ rfl), ?_, ?_⟩ <;>
      simp only [loopIteration, if_neg filled, Peer.call, Call.run]

/-! ### Two processes -/

/-- Two processes with a network between them. -/
structure Session where
  near : Process
  far : Process

/-- The network hands over any datagram of the other process, again or never. -/
inductive Session.Step : Session → Session → Prop
  | near (session : Session) (near : Process)
      (step : Process.Step session.far.peer.wire session.near near) :
      Step session { session with near := near }
  | far (session : Session) (far : Process)
      (step : Process.Step session.near.peer.wire session.far far) :
      Step session { session with far := far }

/-- A process as the role `client` or the role `server` starts it. -/
inductive Process.Started : Process → Prop
  | server : Started Process.server
  | client (clock : Int64) : Started (Process.client clock)

/-- A session that two started processes reach. -/
inductive Session.Reached : Session → Prop
  | start (near far : Process) (nearStarted : near.Started) (farStarted : far.Started) :
      Reached ⟨near, far⟩
  | step {session session' : Session} (before : Reached session)
      (step : Session.Step session session') : Reached session'

/-! ### Messages on time -/

/-- Every clock read so far is 20 ms before the end of an `IINT64`, so that `slap`
does not overflow. -/
def Pacer.ClocksFit (pacer : Pacer) : Prop :=
  pacer.started.toInt < 2 ^ 63 - 20 ∧ ∀ reading ∈ pacer.readings, reading.toInt < 2 ^ 63 - 20

/-- The clock from which message `k` is to be sent. -/
def Pacer.deadline (pacer : Pacer) (k : ℕ) : ℤ := pacer.started.toInt + 20 * (k + 1)

/-- The first clock in the loop at which it is. -/
def Pacer.firstPast (pacer : Pacer) (k : ℕ) : Option Int64 :=
  pacer.readings.find? fun reading => pacer.deadline k ≤ reading.toInt

/-- The messages have been posted in order, each stamped with the first clock
that has reached its deadline; `index` counts them; behind the inner loop no
deadline is left, and finitely many rounds lead there. -/
structure OnTime (pacer : Pacer) : Prop where
  stamped : ∀ k < pacer.posted.length, ∃ reading, pacer.firstPast k = some reading ∧
    pacer.posted[k]? = some (originalBytes (Int64.ofNat k) reading)
  index : pacer.index.toInt = pacer.posted.length
  caughtUp : ¬ pacer.Due → ∀ k, pacer.posted.length ≤ k → pacer.firstPast k = none
  ends : ∃ ended, ReflTransGen Pacer.Round pacer ended ∧ ¬ ended.Due

/-- The invariant of the loop: the variables count the messages, and only the
last clock can have reached the next deadline. -/
structure Pacing (pacer : Pacer) : Prop where
  slap : pacer.slap.toInt = pacer.deadline pacer.posted.length
  index : pacer.index = Int64.ofNat pacer.posted.length
  last : pacer.readings = [] ∧ pacer.current = pacer.started ∨
    ∃ earlier, pacer.readings = earlier ++ [pacer.current] ∧
      ∀ reading ∈ earlier, reading.toInt < pacer.slap.toInt
  stamped : ∀ k < pacer.posted.length, ∃ reading, pacer.firstPast k = some reading ∧
    pacer.posted[k]? = some (originalBytes (Int64.ofNat k) reading)

theorem Pacer.due_iff (pacer : Pacer) : pacer.Due ↔ pacer.slap.toInt ≤ pacer.current.toInt :=
  Int64.le_iff_toInt_le

/-- A later deadline does not wrap around. -/
theorem add_twenty_toInt {clock : Int64} (fits : clock.toInt < 2 ^ 63 - 20) :
    (clock + 20).toInt = clock.toInt + 20 := by
  have low := Int64.le_toInt clock
  have twenty : (20 : Int64).toInt = 20 := rfl
  rw [Int64.toInt_add, twenty]
  exact Int.bmod_eq_of_le (by omega) (by omega)

theorem Pacing.start {clock : Int64} (fits : (Pacer.start clock).ClocksFit) :
    Pacing (Pacer.start clock) where
  slap := by
    have later : (clock + 20).toInt = clock.toInt + 20 := add_twenty_toInt fits.1
    simpa [Pacer.start, Pacer.deadline] using later
  index := rfl
  last := Or.inl ⟨rfl, rfl⟩
  stamped := by simp [Pacer.start]

/-- The clock in use is one of those read. -/
theorem Pacing.current_lt {pacer : Pacer} (pacing : Pacing pacer) (fits : pacer.ClocksFit) :
    pacer.current.toInt < 2 ^ 63 - 20 := by
  rcases pacing.last with ⟨-, fresh⟩ | ⟨earlier, split, -⟩
  · rw [fresh]
    exact fits.1
  · exact fits.2 pacer.current (by simp [split])

/-- While the inner loop runs, the next deadline is one more turn of 20 ms. -/
theorem Pacing.slap_post {pacer : Pacer} (pacing : Pacing pacer) (fits : pacer.ClocksFit)
    (due : pacer.Due) : pacer.post.slap.toInt = pacer.slap.toInt + 20 := by
  have current := pacing.current_lt fits
  have reached := pacer.due_iff.mp due
  exact add_twenty_toInt (by omega)

/-- Behind the inner loop no clock has reached `slap`. -/
theorem Pacing.readings_lt {pacer : Pacer} (pacing : Pacing pacer) (ended : ¬ pacer.Due) :
    ∀ reading ∈ pacer.readings, reading.toInt < pacer.slap.toInt := by
  intro reading member
  rcases pacing.last with ⟨none', -⟩ | ⟨earlier, split, before⟩
  · rw [none'] at member
    exact absurd member List.not_mem_nil
  · rw [split] at member
    rcases List.mem_append.mp member with old | new
    · exact before reading old
    · rw [List.mem_singleton.mp new]
      exact not_le.mp fun reached => ended (pacer.due_iff.mpr reached)

theorem Pacing.read {pacer : Pacer} (pacing : Pacing pacer) (ended : ¬ pacer.Due)
    (clock : Int64) : Pacing (pacer.read clock) where
  slap := pacing.slap
  index := pacing.index
  last := Or.inr ⟨pacer.readings, rfl, pacing.readings_lt ended⟩
  stamped := by
    intro k below
    obtain ⟨reading, first, message⟩ := pacing.stamped k below
    refine ⟨reading, ?_, message⟩
    show List.find? _ (pacer.readings ++ [clock]) = some reading
    rw [List.find?_append]
    show (pacer.firstPast k).or _ = _
    rw [first]
    rfl

/-- The clock that makes the next message due is the first to reach its deadline. -/
theorem Pacing.firstPast {pacer : Pacer} (pacing : Pacing pacer) (due : pacer.Due) :
    pacer.firstPast pacer.posted.length = some pacer.current := by
  have reached : pacer.deadline pacer.posted.length ≤ pacer.current.toInt :=
    pacing.slap ▸ pacer.due_iff.mp due
  rcases pacing.last with ⟨-, fresh⟩ | ⟨earlier, split, before⟩
  · rw [fresh, Pacer.deadline] at reached
    omega
  · have none' : earlier.find? (fun reading =>
        decide (pacer.deadline pacer.posted.length ≤ reading.toInt)) = none := by
      rw [List.find?_eq_none]
      intro reading member
      have := before reading member
      rw [pacing.slap] at this
      simpa using this
    rw [Pacer.firstPast, split, List.find?_append, none']
    simpa using reached

theorem Pacing.post {pacer : Pacer} (pacing : Pacing pacer) (fits : pacer.ClocksFit)
    (due : pacer.Due) : Pacing pacer.post where
  slap := by
    have slap := pacing.slap
    rw [pacing.slap_post fits due, slap]
    simp only [Pacer.post, Pacer.deadline, List.length_append, List.length_singleton]
    push_cast
    omega
  index := by
    simp only [Pacer.post, List.length_append, List.length_singleton]
    rw [pacing.index, Int64.ofNat_add]
    rfl
  last := by
    rcases pacing.last with ⟨none', fresh⟩ | ⟨earlier, split, before⟩
    · exact Or.inl ⟨none', fresh⟩
    · refine Or.inr ⟨earlier, split, fun reading member => ?_⟩
      have := before reading member
      rw [pacing.slap_post fits due]
      omega
  stamped := by
    intro k below
    simp only [Pacer.post, List.length_append, List.length_singleton] at below
    rcases Nat.lt_or_eq_of_le (Nat.le_of_lt_succ below) with old | rfl
    · obtain ⟨reading, first, message⟩ := pacing.stamped k old
      refine ⟨reading, first, ?_⟩
      show (pacer.posted ++ [pacer.message])[k]? = _
      rw [List.getElem?_append_left old, message]
    · refine ⟨pacer.current, pacing.firstPast due, ?_⟩
      show (pacer.posted ++ [pacer.message])[pacer.posted.length]? = _
      rw [List.getElem?_concat_length, Pacer.message, pacing.index]

/-- Each round of the inner loop brings `slap` nearer to the clock. -/
theorem Pacing.ends {pacer : Pacer} (pacing : Pacing pacer) (fits : pacer.ClocksFit) :
    ∃ ended, ReflTransGen Pacer.Round pacer ended ∧ ¬ ended.Due := by
  have advances : Progress.Advances Pacer.Round (fun state => Pacing state ∧ state.ClocksFit)
      (fun state => ¬ state.Due) fun state =>
        (state.current.toInt + 1 - state.slap.toInt).toNat := by
    intro state ⟨pacing, fits⟩ more
    have due := not_not.mp more
    have reached := state.due_iff.mp due
    have later := pacing.slap_post fits due
    refine ⟨state.post, ReflTransGen.single (Pacer.Round.post state due),
      ⟨pacing.post fits due, fits⟩, ?_⟩
    show (state.current.toInt + 1 - state.post.slap.toInt).toNat <
      (state.current.toInt + 1 - state.slap.toInt).toNat
    omega
  obtain ⟨ended, rounds, -, notDue⟩ := advances.reaches pacer ⟨pacing, fits⟩
  exact ⟨ended, rounds, notDue⟩

theorem Pacing.onTime {pacer : Pacer} (pacing : Pacing pacer) (fits : pacer.ClocksFit) :
    OnTime pacer where
  stamped := pacing.stamped
  index := by
    have high := Int64.toInt_lt pacer.slap
    have low := Int64.le_toInt pacer.started
    have slap := pacing.slap
    rw [Pacer.deadline] at slap
    rw [pacing.index, Int64.toInt_ofNat_of_lt (by omega)]
  ends := pacing.ends fits
  caughtUp := by
    intro ended k later
    rw [Pacer.firstPast, List.find?_eq_none]
    intro reading member
    have below := pacing.readings_lt ended reading member
    have slap := pacing.slap
    rw [decide_eq_true_eq, not_le]
    unfold Pacer.deadline at slap ⊢
    omega

/-- A step of a process keeps what every turn of its loop keeps. -/
theorem Process.Step.pacing {wire : List Datagram} {process process' : Process}
    (step : Process.Step wire process process')
    (pacing : ∀ pacer, process.pacer = some pacer → pacer.ClocksFit → Pacing pacer) :
    ∀ pacer, process'.pacer = some pacer → pacer.ClocksFit → Pacing pacer := by
  cases step with
  | update clock place => exact pacing
  | silent place => exact pacing
  | input datagram place arrives filled => exact pacing
  | recv beyond place =>
      have same : (process.receive beyond).pacer = process.pacer := by
        simp only [Process.receive]
        split
        · split <;> rfl
        · rfl
      rw [same]
      exact pacing
  | reply text before after place => exact pacing
  | read pacer clock paced alive ended =>
      rintro _ ⟨⟩ ⟨started, read⟩
      have before : pacer.ClocksFit :=
        ⟨started, fun reading member => read reading (List.mem_append_left _ member)⟩
      exact (pacing pacer paced before).read ended clock
  | post pacer before after paced alive due =>
      rintro _ ⟨⟩ fits
      exact (pacing pacer paced fits).post fits due

theorem Process.Started.pacing {process : Process} (started : process.Started) :
    ∀ pacer, process.pacer = some pacer → pacer.ClocksFit → Pacing pacer := by
  cases started with
  | server => simp [Process.server]
  | client clock =>
      rintro _ ⟨⟩ fits
      exact Pacing.start fits

theorem Session.Reached.pacing {session : Session} (reached : session.Reached) :
    (∀ pacer, session.near.pacer = some pacer → pacer.ClocksFit → Pacing pacer) ∧
      ∀ pacer, session.far.pacer = some pacer → pacer.ClocksFit → Pacing pacer := by
  induction reached with
  | start near far nearStarted farStarted => exact ⟨nearStarted.pacing, farStarted.pacing⟩
  | step before step inductionHypothesis =>
      obtain ⟨near, far⟩ := inductionHypothesis
      cases step with
      | near _ step => exact ⟨step.pacing near, far⟩
      | far _ step => exact ⟨near, step.pacing far⟩

/-- However the threads and the network interleave, each call into KCP and each
`kcpSend` as a whole being one atomic step, and whatever the clocks read short of
the last 20 ms of an `IINT64`, `test_kcp_send` posts the messages `0, 1, 2, …` in
order, one for each deadline of 20 ms, stamped with the first clock that has
reached it; none is skipped after a long sleep and none repeated when the clock
goes back, and finitely many posts end the inner loop. -/
theorem posts_on_time (session : Session) (reached : session.Reached) (pacer : Pacer)
    (paced : session.near.pacer = some pacer ∨ session.far.pacer = some pacer)
    (fits : pacer.ClocksFit) : OnTime pacer := by
  obtain ⟨near, far⟩ := reached.pacing
  rcases paced with nearPaced | farPaced
  · exact (near pacer nearPaced fits).onTime fits
  · exact (far pacer farPaced fits).onTime fits

/-- A sleep of 45 ms makes two messages due at once. -/
def overslept : Process :=
  { Process.client 1000 with
    peer := ((Peer.start.call (.update (clock32 1045))).call
      (sendOf (originalBytes 0 1045) 1045 1045)).call (sendOf (originalBytes 1 1045) 1046 1046)
    pacer := some (((Pacer.start 1000).read 1045).post.post) }

theorem posts_on_time_overslept :
    OnTime (((Pacer.start 1000).read 1045).post.post) ∧
      (((Pacer.start 1000).read 1045).post.post).posted =
        [originalBytes 0 1045, originalBytes 1 1045] := by
  have started := Session.Reached.start _ _ (Process.Started.client 1000) Process.Started.server
  have slept := started.step (Session.Step.near _ _
    (Process.Step.read _ (Pacer.start 1000) 1045 rfl (by decide) (by decide)))
  have first := slept.step (Session.Step.near _ _
    (Process.Step.post _ ((Pacer.start 1000).read 1045) 1045 1045 rfl (by decide) (by decide)))
  have second := first.step (Session.Step.near _ overslept
    (Process.Step.post _ ((Pacer.start 1000).read 1045).post 1046 1046 rfl (by decide)
      (by decide)))
  have fits : (((Pacer.start 1000).read 1045).post.post).ClocksFit := by
    refine ⟨by decide, fun reading member => ?_⟩
    rw [List.mem_singleton.mp member]
    decide
  exact ⟨posts_on_time _ second _ (Or.inl rfl) fits, by decide⟩

end KcpTest.Endpoint
