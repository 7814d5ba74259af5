import KcpTest.Endpoint.Program
import KcpTest.Endpoint.CatchUp
import KcpTest.Endpoint.FlowControl

/-!
Contract: what the two programs of a session achieve.

Owns: that a session is a run of its two endpoints, that every message is one
segment, that `run_udp_thread` takes no message in any run, and how far the
windows let the senders get with that.

A run interleaves atomic calls into KCP, as in `Program`.
-/

set_option autoImplicit false

namespace KcpTest.Endpoint

open KcpTest.Kcp KcpTest.Message KcpTest.Library KcpTest.Library.SlidingWindow
  KcpTest.Library.Decimal

/-! ### Messages are single segments -/

theorem printLong_length_le (n : Int64) : (printLong n).length ≤ 20 := by
  have low := Int64.le_toInt n
  have high := Int64.toInt_lt n
  have digits : (numeral n.toInt.natAbs).length ≤ 19 :=
    (numeral_length_le_iff (by decide)).mpr (by omega)
  have sign : (ascii "-").length = 1 := by decide
  unfold printLong
  split
  · rw [List.length_append, sign]
    omega
  · omega

theorem originalText_bounds (index current : Int64) :
    (originalText index current).length ≤ 64 := by
  have keys : (ascii "index:").length = 6 ∧ (ascii "current:").length = 8 ∧
      (ascii "retrans:").length = 8 ∧ (ascii "\n").length = 1 ∧ (printInt 0).length = 1 := by
    decide
  have indexDigits := printLong_length_le index
  have currentDigits := printLong_length_le current
  simp only [originalText, List.length_append, keys]
  omega

/-- A posted message has a byte and fits one segment. -/
theorem originalBytes_bounds (index current : Int64) :
    0 < (originalBytes index current).length ∧ (originalBytes index current).length ≤ 64 := by
  have short := originalText_bounds index current
  obtain ⟨rest, text⟩ : ∃ rest, originalText index current = 105 :: rest := ⟨_, rfl⟩
  have prefix' := (List.takeWhile_prefix (· ≠ 0) (l := originalText index current)).length_le
  have some' : 0 < ((originalText index current).takeWhile (· ≠ 0)).length := by
    rw [text]
    simp
  simp only [originalBytes, List.length_take, UInt16.toNat_ofNat']
  omega

/-- A message that fits one segment is appended as one. -/
theorem WellFormed.ikcpSend_single {kcp : Kcpcb} (formed : WellFormed kcp)
    {text : Message.Bytes} (short : text.length ≤ 1376) :
    ikcpSend kcp text (Int32.ofNat text.length) =
      ((text.length : Int), { kcp with sndQueue := kcp.sndQueue ++ [{ data := text }] }) := by
  have mss := formed.mss_toNat
  have len : (Int32.ofNat text.length).toInt = text.length :=
    Int32.toInt_ofNat_of_lt (by omega)
  have one : fragmentCount kcp.mss text.length = 1 := by
    have small : kcp.mss.toInt32.toInt = 1376 := by
      have same : kcp.mss = 1376 := UInt32.toNat_inj.mp mss
      rw [same]
      decide
    rw [fragmentCount, small, if_pos (by omega)]
  have whole : fragmentSize 1376 text.length = text.length := by
    unfold fragmentSize
    split <;> omega
  rw [ikcpSend_message kcp _ _ formed.stream, len, if_neg (by omega), one, if_neg (by decide),
    if_neg (by decide), mss]
  simp [fragmentSent, fragmentLoop, whole]

theorem Call.accepted_sendOf {kcp : Kcpcb} (formed : WellFormed kcp) {text : Message.Bytes}
    (short : text.length ≤ 1376) (before after : Int64) :
    (sendOf text before after).accepted kcp =
      [{ message := text, segments := [{ data := text }] }] := by
  have len : (Int32.ofNat text.length).toInt = text.length :=
    Int32.toInt_ofNat_of_lt (by omega)
  have sent := (formed.update (clock32 before)).ikcpSend_single short
  simp only [sendOf, Call.accepted, sent, len]
  simp

/-! ### Nothing is taken -/

/-- What a process has posted. -/
def Process.posted (process : Process) : List Message.Bytes :=
  (process.pacer.map Pacer.posted).getD []

/-- A process that has taken no message: it has answered and passed on nothing,
and all it got accepted is what it posted, in single segments. -/
structure Mute (process : Process) : Prop where
  silent : ∀ text, process.place ≠ .reply text
  alive : process.place ≠ .terminated
  received : process.peer.received = []
  passed : process.passed = []
  accepted : process.peer.accepted.map Accepted.message = process.posted
  single : ∀ entry ∈ process.peer.accepted, entry.message ≠ [] ∧ entry.segments.length = 1

theorem Process.Started.mute {process : Process} (started : process.Started) : Mute process := by
  cases started <;>
    exact
      { silent := by simp [Process.client, Process.server]
        alive := by simp [Process.client, Process.server]
        received := rfl
        passed := rfl
        accepted := rfl
        single := by simp [Process.client, Process.server, Peer.start] }

theorem Mute.segments {process : Process} (mute : Mute process) :
    process.peer.segments = process.posted.length := by
  have ones : (process.peer.accepted.map fun entry => entry.segments.length) =
      process.peer.accepted.map fun _ => 1 :=
    List.map_congr_left fun entry member => (mute.single entry member).2
  rw [Peer.segments, List.length_flatMap, ones, ← mute.accepted]
  simp

/-- A call that returns no message, and gets accepted what the process posts. -/
theorem Mute.call {process : Process} (mute : Mute process) {call : Call}
    {entries : List Accepted} (accepted : call.accepted process.peer.kcp = entries)
    (received : call.received process.peer.kcp = [])
    (single : ∀ entry ∈ entries, entry.message ≠ [] ∧ entry.segments.length = 1)
    {place : Place} (silent : ∀ text, place ≠ .reply text) (alive : place ≠ .terminated)
    {pacer : Option Pacer}
    (posted : (pacer.map Pacer.posted).getD [] =
      process.posted ++ entries.map Accepted.message) :
    Mute { process with peer := process.peer.call call, place := place, pacer := pacer } where
  silent := silent
  alive := alive
  received := by rw [Peer.call, received, List.append_nil, mute.received]
  passed := mute.passed
  accepted := by
    rw [Peer.call, accepted, List.map_append, mute.accepted]
    exact posted.symm
  single := by
    rw [Peer.call, accepted]
    intro entry member
    rcases List.mem_append.mp member with old | new
    · exact mute.single entry old
    · exact single entry new

theorem Mute.quiet {process : Process} (mute : Mute process) {call : Call}
    (accepted : call.accepted process.peer.kcp = [])
    (received : call.received process.peer.kcp = []) {place : Place}
    (silent : ∀ text, place ≠ .reply text) (alive : place ≠ .terminated) {pacer : Option Pacer}
    (posted : (pacer.map Pacer.posted).getD [] = process.posted) :
    Mute { process with peer := process.peer.call call, place := place, pacer := pacer } :=
  mute.call accepted received (by simp) silent alive (by simpa using posted)

/-- A refused receive goes back to the update. -/
theorem Process.receive_of_refused {process : Process}
    (refused : (ikcpRecv process.peer.kcp 0).ret < 0) (beyond : Message.Bytes) :
    process.receive beyond =
      { process with peer := process.peer.call (.recv 0), place := .update } := by
  rw [Process.receive, if_neg (by omega)]

/-- One step, when nothing can be taken. -/
theorem Mute.step {wire : List Datagram} {process process' : Process} (mute : Mute process)
    (formed : WellFormed process.peer.kcp) (refused : (ikcpRecv process.peer.kcp 0).ret < 0)
    (step : Process.Step wire process process') : Mute process' := by
  cases step with
  | update clock place =>
      exact mute.quiet rfl rfl (by simp) (by simp) rfl
  | silent place =>
      exact
        { mute with
          silent := by simp
          alive := by simp }
  | input datagram place arrives filled =>
      refine mute.quiet rfl rfl ?_ ?_ rfl
      · intro text
        split <;> simp
      · split <;> simp
  | recv beyond place =>
      rw [Process.receive_of_refused refused]
      have nothing : Call.received process.peer.kcp (.recv 0) = [] := if_neg (by omega)
      exact mute.quiet rfl nothing (by simp) (by simp) rfl
  | reply text before after place => exact absurd place (mute.silent text)
  | read pacer clock paced alive ended =>
      refine mute.quiet rfl rfl mute.silent mute.alive ?_
      rw [Process.posted, paced]
      rfl
  | post pacer before after paced alive due =>
      have bounds : 0 < pacer.message.length ∧ pacer.message.length ≤ 64 :=
        originalBytes_bounds _ _
      have short : pacer.message.length ≤ 1376 := by omega
      have entry := Call.accepted_sendOf formed short before after
      refine mute.call entry rfl ?_ mute.silent mute.alive ?_
      · intro other member
        rw [List.mem_singleton.mp member]
        exact ⟨List.ne_nil_of_length_pos bounds.1, rfl⟩
      · rw [Process.posted, paced]
        rfl

/-! ### A session is a run of its endpoints -/

def Session.pair (session : Session) : Pair := ⟨session.near.peer, session.far.peer⟩

/-- What is on the wire has the length of a packet. -/
theorem Reachable.wire_short {pair : Pair} (reachable : Reachable pair) :
    (∀ packet ∈ pair.near.wire, packet.length ≤ 1400) ∧
      ∀ packet ∈ pair.far.wire, packet.length ≤ 1400 := by
  have more : ∀ (peer : Peer) (call : Call), WellFormed peer.kcp →
      (∀ packet ∈ peer.wire, packet.length ≤ 1400) →
      ∀ packet ∈ (peer.call call).wire, packet.length ≤ 1400 := by
    intro peer call formed short packet member
    rcases List.mem_append.mp member with old | new
    · exact short packet old
    · exact (formed.emits_run call packet new).length_le
  induction reachable with
  | refl => exact ⟨by simp [Pair.start, Peer.start], by simp [Pair.start, Peer.start]⟩
  | tail run step inductionHypothesis =>
      obtain ⟨near, far⟩ := inductionHypothesis
      obtain ⟨nearFormed, farFormed⟩ := Reachable.formed run
      cases step with
      | near call allowed => exact ⟨more _ call nearFormed near, far⟩
      | far call allowed => exact ⟨near, more _ call farFormed far⟩

/-- A step of a process is a call at its endpoint, or none. -/
theorem Process.Step.calls {wire : List Datagram} {process process' : Process}
    (step : Process.Step wire process process')
    (short : ∀ packet ∈ wire, packet.length ≤ 1400) :
    process'.peer = process.peer ∨
      ∃ call : Call, call.Allowed wire ∧ process'.peer = process.peer.call call := by
  cases step with
  | update clock place => exact Or.inr ⟨.update (clock32 clock), trivial, rfl⟩
  | silent place => exact Or.inl rfl
  | input datagram place arrives filled =>
      have whole : datagram.take 2048 = datagram :=
        List.take_of_length_le ((short datagram arrives).trans (by decide))
      exact Or.inr ⟨.input (datagram.take 2048), whole.symm ▸ arrives, rfl⟩
  | recv beyond place =>
      refine Or.inr ⟨.recv 0, (by decide : (0 : Int) ≤ (0 : Int32).toInt), ?_⟩
      simp only [Process.receive]
      split
      · split <;> rfl
      · rfl
  | reply text before after place => exact Or.inr ⟨sendOf text before after, trivial, rfl⟩
  | read pacer clock paced alive ended => exact Or.inr ⟨.update (clock32 clock), trivial, rfl⟩
  | post pacer before after paced alive due =>
      exact Or.inr ⟨sendOf pacer.message before after, trivial, rfl⟩

theorem Session.Reached.reachable {session : Session} (reached : session.Reached) :
    Reachable session.pair := by
  induction reached with
  | start near far nearStarted farStarted =>
      have fresh : ∀ {process : Process}, process.Started → process.peer = Peer.start := by
        rintro _ ⟨⟩ <;> rfl
      show Reachable ⟨near.peer, far.peer⟩
      rw [fresh nearStarted, fresh farStarted]
      exact Relation.ReflTransGen.refl
  | step before step inductionHypothesis =>
      obtain ⟨nearShort, farShort⟩ := Reachable.wire_short inductionHypothesis
      cases step with
      | near near step =>
          rcases step.calls farShort with same | ⟨call, allowed, result⟩
          · rw [Session.pair, same]
            exact inductionHypothesis
          · rw [Session.pair, result]
            exact inductionHypothesis.tail (Endpoint.Step.near _ call allowed)
      | far far step =>
          rcases step.calls nearShort with same | ⟨call, allowed, result⟩
          · rw [Session.pair, same]
            exact inductionHypothesis
          · rw [Session.pair, result]
            exact inductionHypothesis.tail (Endpoint.Step.far _ call allowed)

/-! ### No run takes a message -/

/-- With `recv_len` zero only an empty message could be taken. -/
theorem Coupled.refuses {near far : Peer} {out inc : Link Fragment}
    (coupled : Coupled near far out inc) (filled : ∀ entry ∈ near.accepted, entry.message ≠ []) :
    (ikcpRecv far.kcp 0).ret < 0 := by
  rcases ikcpRecv_cases far.kcp 0 with ⟨refused, -, -⟩ | ⟨ready, fits, -, -, -, -⟩
  · exact refused
  · obtain ⟨entry, member, same⟩ := coupled.next_message ready
    have zero : (0 : Int32).toInt.natAbs = 0 := by decide
    have peek : ikcpPeeksize far.kcp = entry.message.length := by
      rw [(ikcpPeeksize_of_nonneg ready).2, ← mergeFragments_length, same]
    have := List.length_pos_of_ne_nil (filled entry member)
    omega

theorem Process.Step.posted_le {wire : List Datagram} {process process' : Process}
    (step : Process.Step wire process process') :
    process.posted.length ≤ process'.posted.length := by
  cases step with
  | update clock place => exact Nat.le_refl _
  | silent place => exact Nat.le_refl _
  | input datagram place arrives filled => exact Nat.le_refl _
  | recv beyond place =>
      have same : (process.receive beyond).posted = process.posted := by
        simp only [Process.receive]
        split
        · split <;> rfl
        · rfl
      rw [same]
  | reply text before after place => exact Nat.le_refl _
  | read pacer clock paced alive ended =>
      rw [Process.posted, paced]
      exact Nat.le_refl _
  | post pacer before after paced alive due =>
      rw [Process.posted, paced]
      show pacer.posted.length ≤ (pacer.posted ++ [pacer.message]).length
      rw [List.length_append]
      exact Nat.le_add_right _ _

theorem Session.Reached.live {session : Session} (reached : session.Reached)
    (near : Mute session.near) (far : Mute session.far)
    (fewNear : session.near.posted.length < 2 ^ 31)
    (fewFar : session.far.posted.length < 2 ^ 31) : Live session.pair :=
  Reachable.live reached.reachable (near.segments.symm ▸ fewNear) (far.segments.symm ▸ fewFar)

theorem Session.Reached.mute {session : Session} (reached : session.Reached)
    (fewNear : session.near.posted.length < 2 ^ 31)
    (fewFar : session.far.posted.length < 2 ^ 31) : Mute session.near ∧ Mute session.far := by
  induction reached with
  | start near far nearStarted farStarted => exact ⟨nearStarted.mute, farStarted.mute⟩
  | step before step inductionHypothesis =>
      cases step with
      | near near step =>
          have fewer := Nat.lt_of_le_of_lt step.posted_le fewNear
          obtain ⟨nearMute, farMute⟩ := inductionHypothesis fewer fewFar
          have live := before.live nearMute farMute fewer fewFar
          obtain ⟨out, inc, coupled⟩ := live.coupled
          have refused := coupled.symm.refuses fun entry member => (farMute.single entry member).1
          exact ⟨nearMute.step live.near.formed refused step, farMute⟩
      | far far step =>
          have fewer := Nat.lt_of_le_of_lt step.posted_le fewFar
          obtain ⟨nearMute, farMute⟩ := inductionHypothesis fewNear fewer
          have live := before.live nearMute farMute fewNear fewer
          obtain ⟨out, inc, coupled⟩ := live.coupled
          have refused := coupled.refuses fun entry member => (nearMute.single entry member).1
          exact ⟨nearMute, farMute.step live.far.formed refused step⟩

/-! ### How far the windows let a sender get -/

/-- An endpoint that has taken nothing has no room from position 4096 on. -/
theorem Live.holds_lt {pair : Pair} (live : Live pair) {out inc : Link Fragment}
    (coupled : Coupled pair.near pair.far out inc) (untaken : pair.far.received = []) :
    pair.far.kcp.rcvNxt.toNat ≤ 2048 ∧ ∀ position, out.Holds position → position < 4096 := by
  have incoming := coupled.farLocal.incoming
  have sound := coupled.nearLocal.outSound
  have window := live.far.windowed.receiving
  obtain ⟨read, later, split, received, taken⟩ := coupled.sends.received
  have nothing : out.taken = [] := by
    have none' : read = [] := List.map_eq_nil_iff.mp (received.symm.trans untaken)
    rw [taken, none']
    rfl
  have total := sound.taken_length_add
  have queueLength : pair.far.kcp.rcvQueue.length = out.queue.length := by
    rw [← incoming.rcvQueue, List.length_map]
  have queue_le := window.queue_le
  have rcvNxt := incoming.rcvNxt
  rw [nothing, List.length_nil] at total
  have next : pair.far.kcp.rcvNxt.toNat ≤ 2048 := by omega
  refine ⟨next, fun position holds => ?_⟩
  have := live.holds_lt_window coupled holds
  omega

/-- What the other end does not hold waits at the sender. -/
theorem Live.segments_le {pair : Pair} (live : Live pair) (untaken : pair.far.received = []) :
    pair.near.segments ≤ ikcpWaitsnd pair.near.kcp + 4096 := by
  obtain ⟨out, inc, coupled⟩ := live.coupled
  have holds := (live.holds_lt coupled untaken).2
  have outgoing := coupled.nearLocal.outgoing
  have waiting : List.range' 4096 (out.sent - 4096) ⊆
      pair.near.kcp.sndBuf.map fun seg => seg.sn.toNat := by
    intro position member
    obtain ⟨low, high⟩ := List.mem_range'_1.mp member
    rcases coupled.nearLocal.outSound.retained position (by omega) with ⟨value, kept⟩ | held
    · rw [← outgoing.sndBuf] at kept
      obtain ⟨seg, inBuf, same⟩ := kept
      exact List.mem_map.mpr ⟨seg, inBuf, (Prod.mk.inj same).1.symm⟩
    · exact absurd (holds position held) (by omega)
  have count := (List.subperm_of_subset List.nodup_range' waiting).length_le
  rw [List.length_range', List.length_map] at count
  rw [coupled.segments_eq, ikcpWaitsnd]
  omega

/-! ### The program -/

/-- What one end of a session has reached and what the other has made of it. -/
structure Stalled (sender receiver : Process) : Prop where
  accepted : sender.peer.accepted.map Accepted.message = sender.posted
  received : receiver.peer.received = []
  passed : receiver.passed = []
  silent : ∀ text, receiver.place ≠ .reply text
  rcvNxt : receiver.peer.kcp.rcvNxt.toNat ≤ 2048
  backlog : sender.posted.length ≤ ikcpWaitsnd sender.peer.kcp + 4096

theorem Mute.stalled {sender receiver : Process} (senderMute : Mute sender)
    (receiverMute : Mute receiver) {pair : Pair} (live : Live pair)
    (near : pair.near = sender.peer) (far : pair.far = receiver.peer) :
    Stalled sender receiver := by
  obtain ⟨out, inc, coupled⟩ := live.coupled
  have untaken : pair.far.received = [] := far ▸ receiverMute.received
  exact
    { accepted := senderMute.accepted
      received := receiverMute.received
      passed := receiverMute.passed
      silent := receiverMute.silent
      rcvNxt := far ▸ (live.holds_lt coupled untaken).1
      backlog := by
        rw [← senderMute.segments, ← near]
        exact live.segments_le untaken }

/-- In no run of two such processes, each call into KCP and each `kcpSend` as a
whole being one atomic step, is a message ever taken out of KCP, echoed or
analysed, as long as fewer than `2 ^ 31` are posted either way: the receiver stops
at its window, and all messages but 4096 pile up at the sender. -/
theorem session_stalls (session : Session) (reached : session.Reached)
    (fewNear : session.near.posted.length < 2 ^ 31)
    (fewFar : session.far.posted.length < 2 ^ 31) :
    Stalled session.near session.far ∧ Stalled session.far session.near := by
  obtain ⟨near, far⟩ := reached.mute fewNear fewFar
  have live := reached.live near far fewNear fewFar
  exact ⟨near.stalled far live rfl rfl, far.stalled near live.swap rfl rfl⟩

/-- A client that has posted one message, 20 ms after its start. -/
def posting : Process :=
  { Process.client 1000 with
    peer := (Peer.start.call (.update (clock32 1020))).call
      (sendOf (originalBytes 0 1020) 1020 1030)
    pacer := some ((Pacer.start 1000).read 1020).post }

/-- A server whose update is done, and one that has reached `ikcp_recv`. -/
def polling : Process :=
  { Process.server with
    peer := Peer.start.call (.update (clock32 1031))
    place := .recvfrom }

def reading : Process :=
  { polling with
    peer := polling.peer.call (.input ((posting.peer.wire.headD []).take 2048))
    place := .recv }

/-- The message has arrived as a whole, and stays in KCP. -/
theorem session_stalls_unread :
    pending (reading.receive []).peer.kcp = [originalBytes 0 1020] ∧
      Stalled posting (reading.receive []) ∧ Stalled (reading.receive []) posting := by
  have started := Session.Reached.start _ _ (Process.Started.client 1000) Process.Started.server
  have read := started.step (Session.Step.near _ _
    (Process.Step.read _ (Pacer.start 1000) 1020 rfl (by decide) (by decide)))
  have posted := read.step (Session.Step.near _ posting
    (Process.Step.post _ ((Pacer.start 1000).read 1020) 1020 1030 rfl (by decide) (by decide)))
  have polled := posted.step (Session.Step.far _ polling (Process.Step.update _ 1031 rfl))
  have input : Process.Step posting.peer.wire polling reading :=
    Process.Step.input polling (posting.peer.wire.headD []) rfl (by decide) (by decide)
  have arrived := polled.step (Session.Step.far _ reading input)
  have received := arrived.step (Session.Step.far _ _ (Process.Step.recv _ [] rfl))
  exact ⟨by decide, session_stalls _ received (by decide) (by decide)⟩

end KcpTest.Endpoint
