import KcpTest.Endpoint.LocalSteps

/-!
Contract: reliable delivery between two endpoints over a network that loses,
duplicates, delays and reorders.

Owns: the joint invariant of two endpoints, the step lemma that every call keeps
it, and the delivery theorem for every run.
-/

set_option autoImplicit false

namespace KcpTest.Endpoint

open KcpTest.Kcp KcpTest.Library KcpTest.Library.SlidingWindow

/-! ### The joint invariant -/

/-- The messages of one direction and the link that carries them. -/
structure Direction (sender receiver : Peer) (link : Link Fragment) : Prop where
  accepted : link.accepted = fragments sender.accepted
  spelled : ∀ entry ∈ sender.accepted,
    Spells entry.message (entry.segments.map Segment.fragment)
  received : ∃ read rest, sender.accepted = read ++ rest ∧
    receiver.received = read.map Accepted.message ∧ link.taken = fragments read

/-- Two endpoints and the links between them: `out` from `near` to `far`, `inc`
back. -/
structure Coupled (near far : Peer) (out inc : Link Fragment) : Prop where
  nearLocal : Local near.kcp out inc
  farLocal : Local far.kcp inc out
  sends : Direction near far out
  returns : Direction far near inc
  nearWire : ∀ packet ∈ near.wire, PacketOnWire out inc packet
  farWire : ∀ packet ∈ far.wire, PacketOnWire inc out packet

theorem Coupled.symm {near far : Peer} {out inc : Link Fragment}
    (coupled : Coupled near far out inc) : Coupled far near inc out where
  nearLocal := coupled.farLocal
  farLocal := coupled.nearLocal
  sends := coupled.returns
  returns := coupled.sends
  nearWire := coupled.farWire
  farWire := coupled.nearWire

theorem Local.start : Local createKCP Link.start Link.start where
  formed := WellFormed.createKCP
  outSound := Sound.start
  incSound := Sound.start
  outgoing :=
    { sndNxt := rfl
      sndQueue := rfl
      sndBuf := by
        ext entry
        simp [entries, Link.start, createKCP, ikcpNodelay, ikcpWndsize, ikcpCreate] }
  incoming :=
    { rcvNxt := rfl
      ascending := List.Pairwise.nil
      rcvBuf := by
        ext entry
        simp [entries, Link.start, createKCP, ikcpNodelay, ikcpWndsize, ikcpCreate]
      rcvQueue := rfl
      acklist := by simp [createKCP, ikcpNodelay, ikcpWndsize, ikcpCreate] }

theorem Coupled.start : Coupled Peer.start Peer.start Link.start Link.start where
  nearLocal := Local.start
  farLocal := Local.start
  sends := ⟨rfl, by simp [Peer.start], [], [], rfl, rfl, rfl⟩
  returns := ⟨rfl, by simp [Peer.start], [], [], rfl, rfl, rfl⟩
  nearWire := by simp [Peer.start]
  farWire := by simp [Peer.start]

/-- The segments `near` has sent, counted on its link. -/
theorem Coupled.sent_eq {near far : Peer} {out inc : Link Fragment}
    (coupled : Coupled near far out inc) : near.sent = out.sent := by
  have := coupled.nearLocal.sent_add
  have length := congrArg List.length coupled.sends.accepted
  simp only [fragments, List.length_map] at length
  unfold Peer.sent
  omega

/-! ### One call -/

/-- What a call at `near` does to its two links, the messages and the wire.
`later` are the messages of the peer not yet taken. -/
structure CallEffect (peer : Peer) (call : Call) (out inc out' inc' : Link Fragment)
    (later : List Accepted) : Prop where
  moves : Moves out inc out' inc'
  after : Local (call.run peer.kcp).1 out' inc'
  accepted : out'.accepted = out.accepted ++ fragments (call.accepted peer.kcp)
  spelled : ∀ entry ∈ call.accepted peer.kcp,
    Spells entry.message (entry.segments.map Segment.fragment)
  received : ∃ read rest, later = read ++ rest ∧
    call.received peer.kcp = read.map Accepted.message ∧
    inc'.taken = inc.taken ++ fragments read
  wire : ∀ packet ∈ (call.run peer.kcp).2, PacketOnWire out' inc' packet

theorem Coupled.callEffect {near far : Peer} {out inc : Link Fragment}
    (coupled : Coupled near far out inc) (call : Call) (allowed : call.Allowed far.wire)
    (fewNear : (near.call call).sent < 2 ^ 31) (fewFar : far.sent < 2 ^ 31)
    {later : List Accepted} (untaken : inc.accepted = inc.taken ++ fragments later)
    (spelled : ∀ entry ∈ later, Spells entry.message (entry.segments.map Segment.fragment)) :
    ∃ out' inc', CallEffect near call out inc out' inc' later := by
  have fewInc : inc.sent < 2 ^ 31 := coupled.symm.sent_eq ▸ fewFar
  have length := congrArg List.length coupled.sends.accepted
  simp only [fragments, List.length_map] at length
  simp only [Peer.sent, Peer.call, List.flatMap_append, List.length_append] at fewNear
  cases call with
  | send buffer len before after =>
      obtain ⟨-, spells⟩ := kcpSendQueued_spec coupled.nearLocal.formed buffer len before after
      obtain ⟨out', inc', moves, local', accepted, taken, wire⟩ :=
        coupled.nearLocal.kcpSend buffer len before after rfl (by rw [length]; exact fewNear)
      exact ⟨out', inc',
        { moves := moves
          after := local'
          accepted := accepted
          spelled := spells
          received := ⟨[], later, rfl, rfl, by simp [taken, fragments]⟩
          wire := wire }⟩
  | update current =>
      obtain ⟨out', inc', moves, local', accepted, taken, wire⟩ :=
        coupled.nearLocal.update current (by
          rw [length]
          simpa [Call.accepted, Call.run] using fewNear)
      exact ⟨out', inc',
        { moves := moves
          after := local'
          accepted := by simp [accepted, Call.accepted, fragments]
          spelled := by simp [Call.accepted]
          received := ⟨[], later, rfl, rfl, by simp [taken, fragments]⟩
          wire := wire }⟩
  | recv len =>
      obtain ⟨inc', read, rest, receives, local', split, received, taken⟩ :=
        coupled.nearLocal.recv fewInc len allowed untaken spelled
      exact ⟨out, inc',
        { moves := ⟨Relation.ReflTransGen.refl, receives⟩
          after := local'
          accepted := by simp [Call.accepted, fragments]
          spelled := by simp [Call.accepted]
          received := ⟨read, rest, split, received, taken⟩
          wire := by simp [Call.run] }⟩
  | input data =>
      have fewOut : out.sent < 2 ^ 31 := by
        have := coupled.nearLocal.sent_add
        have same := (ikcpInput_keepsOutbound near.kcp data).sndQueue
        simp only [Call.accepted, Call.run, same, List.flatMap_nil, List.length_nil] at fewNear
        omega
      obtain ⟨out', inc', moves, local', accepted, taken⟩ :=
        coupled.nearLocal.input (coupled.farWire data allowed) fewOut fewInc
      exact ⟨out', inc',
        { moves := moves
          after := local'
          accepted := by simp [accepted, Call.accepted, fragments]
          spelled := by simp [Call.accepted]
          received := ⟨[], later, rfl, rfl, by simp [taken, fragments]⟩
          wire := by simp [Call.run] }⟩

/-- A call at one endpoint keeps the joint invariant. -/
theorem Coupled.call {near far : Peer} {out inc : Link Fragment}
    (coupled : Coupled near far out inc) (call : Call) (allowed : call.Allowed far.wire)
    (fewNear : (near.call call).sent < 2 ^ 31) (fewFar : far.sent < 2 ^ 31) :
    ∃ out' inc', Coupled (near.call call) far out' inc' := by
  obtain ⟨read, later, split, received, taken⟩ := coupled.returns.received
  have untaken : inc.accepted = inc.taken ++ fragments later := by
    rw [coupled.returns.accepted, split, fragments_append, taken]
  obtain ⟨out', inc', effect⟩ := coupled.callEffect call allowed fewNear fewFar untaken
    fun entry member => coupled.returns.spelled entry (by
      rw [split]
      exact List.mem_append_right _ member)
  have sameSender := SameSender.of_run effect.moves.receives
  have sameReceiver := SameReceiver.of_run effect.moves.sends
  refine ⟨out', inc', ?_⟩
  refine
    { nearLocal := effect.after, farLocal := ?_, sends := ?_, returns := ?_
      nearWire := ?_, farWire := ?_ }
  · exact
      { formed := coupled.farLocal.formed
        outSound := effect.after.incSound
        incSound := effect.after.outSound
        outgoing := coupled.farLocal.outgoing.frame sameSender
        incoming := coupled.farLocal.incoming.frame sameReceiver }
  · obtain ⟨farRead, farLater, farSplit, farReceived, farTaken⟩ := coupled.sends.received
    refine { accepted := ?_, spelled := ?_, received := ?_ }
    · rw [effect.accepted, coupled.sends.accepted, Peer.call, fragments_append]
    · intro entry member
      rcases List.mem_append.mp member with old | new
      · exact coupled.sends.spelled entry old
      · exact effect.spelled entry new
    · refine ⟨farRead, farLater ++ call.accepted near.kcp, ?_, farReceived, ?_⟩
      · rw [Peer.call, farSplit, List.append_assoc]
      · rw [sameReceiver.taken, farTaken]
  · obtain ⟨next, rest, laterSplit, nextReceived, nextTaken⟩ := effect.received
    refine { accepted := ?_, spelled := coupled.returns.spelled, received := ?_ }
    · rw [sameSender.accepted, coupled.returns.accepted]
    · refine ⟨read ++ next, rest, ?_, ?_, ?_⟩
      · rw [split, laterSplit, List.append_assoc]
      · rw [Peer.call, received, nextReceived, List.map_append]
      · rw [nextTaken, taken, fragments_append]
  · intro packet member
    rcases List.mem_append.mp member with old | new
    · exact (coupled.nearWire packet old).mono fun seg onWire => onWire.moves effect.moves
    · exact effect.wire packet new
  · exact fun packet member =>
      (coupled.farWire packet member).mono fun seg onWire => onWire.moves_far effect.moves

/-! ### Whole runs -/

/-- No call takes back what was sent. -/
theorem Peer.sent_le_call {peer : Peer} (formed : WellFormed peer.kcp) (call : Call) :
    peer.sent ≤ (peer.call call).sent := by
  have shrinks : (call.run peer.kcp).1.sndQueue.length ≤
      peer.kcp.sndQueue.length +
        ((call.accepted peer.kcp).flatMap Accepted.segments).length := by
    cases call with
    | send buffer len before after =>
        obtain ⟨queued, -⟩ := kcpSendQueued_spec formed buffer len before after
        have first := ikcpUpdate_sndQueue_le peer.kcp (clock32 before)
        have second := ikcpUpdate_sndQueue_le (kcpSendQueued peer.kcp buffer len before)
          (clock32 after)
        have length := congrArg (fun kcp => kcp.sndQueue.length) queued
        simp only [List.length_append] at length
        rw [Call.run, kcpSend_fst]
        omega
    | update current => exact (ikcpUpdate_sndQueue_le peer.kcp current).trans (Nat.le_add_right _ _)
    | recv len =>
        rcases ikcpRecv_cases peer.kcp len with ⟨-, same, -⟩ | ⟨-, -, -, -, probe, result⟩
        · simp [Call.run, same]
        · rw [Call.run, result]
          split <;> exact Nat.le_add_right _ _
    | input data =>
        rw [Call.run, (ikcpInput_keepsOutbound peer.kcp data).sndQueue]
        exact Nat.le_add_right _ _
  simp only [Peer.sent, Peer.call, List.flatMap_append, List.length_append]
  omega

theorem Reachable.formed {pair : Pair} (reachable : Reachable pair) :
    WellFormed pair.near.kcp ∧ WellFormed pair.far.kcp := by
  induction reachable with
  | refl => exact ⟨WellFormed.createKCP, WellFormed.createKCP⟩
  | tail _ step inductionHypothesis =>
      cases step with
      | near call allowed => exact ⟨inductionHypothesis.1.run call, inductionHypothesis.2⟩
      | far call allowed => exact ⟨inductionHypothesis.1, inductionHypothesis.2.run call⟩

theorem Reachable.coupled {pair : Pair} (reachable : Reachable pair)
    (fewNear : pair.near.sent < 2 ^ 31) (fewFar : pair.far.sent < 2 ^ 31) :
    ∃ out inc, Coupled pair.near pair.far out inc := by
  induction reachable with
  | refl => exact ⟨_, _, Coupled.start⟩
  | tail run step inductionHypothesis =>
      obtain ⟨nearFormed, farFormed⟩ := Reachable.formed run
      cases step with
      | near call allowed =>
          have before := Peer.sent_le_call nearFormed call
          obtain ⟨out, inc, coupled⟩ :=
            inductionHypothesis (Nat.lt_of_le_of_lt before fewNear) fewFar
          exact coupled.call call allowed fewNear fewFar
      | far call allowed =>
          have before := Peer.sent_le_call farFormed call
          obtain ⟨out, inc, coupled⟩ :=
            inductionHypothesis fewNear (Nat.lt_of_le_of_lt before fewFar)
          obtain ⟨inc', out', coupled'⟩ := coupled.symm.call call allowed fewFar fewNear
          exact ⟨out', inc', coupled'.symm⟩

/-! ### What the users see -/

/-- A value at a position of a mapped buffer comes from a segment there. -/
private theorem found_of_map {queue : List Segment} {position : ℕ} {fragment : Fragment}
    (found : (queue.map Segment.fragment)[position]? = some fragment) :
    ∃ seg, queue[position]? = some seg ∧ seg.fragment = fragment := by
  rw [List.getElem?_map] at found
  exact Option.map_eq_some_iff.mp found

/-- What the link does not lose is in one of the four buffers. -/
theorem Coupled.heldAt {near far : Peer} {out inc : Link Fragment}
    (coupled : Coupled near far out inc) {place : ℕ} {fragment : Fragment}
    (value : out.accepted[place]? = some fragment) (untaken : out.taken.length ≤ place) :
    HeldAt near.kcp far.kcp place fragment := by
  have outgoing := coupled.nearLocal.outgoing
  have incoming := coupled.farLocal.incoming
  rcases coupled.nearLocal.outSound.not_lost value untaken with
    unsent | retained | buffered | queued
  · have waiting : (near.kcp.sndQueue.map Segment.fragment)[place - out.sent]? =
        some fragment := by
      rw [outgoing.sndQueue, List.getElem?_drop, Nat.add_sub_cancel' unsent, value]
    obtain ⟨seg, there, same⟩ := found_of_map waiting
    rw [← outgoing.sndNxt] at unsent there
    exact HeldAt.sndQueue seg unsent there same
  · rw [← outgoing.sndBuf] at retained
    obtain ⟨seg, member, same⟩ := retained
    obtain ⟨number, content⟩ := Prod.mk.inj same
    exact HeldAt.sndBuf seg member number.symm content.symm
  · rw [← incoming.rcvBuf] at buffered
    obtain ⟨seg, member, same⟩ := buffered
    obtain ⟨number, content⟩ := Prod.mk.inj same
    exact HeldAt.rcvBuf seg member number.symm content.symm
  · rw [← incoming.rcvQueue] at queued
    obtain ⟨seg, there, same⟩ := found_of_map queued
    -- `rcv_nxt` is behind what was taken and what is queued
    have next := incoming.rcvNxt
    have queueLength : far.kcp.rcvQueue.length = out.queue.length := by
      rw [← incoming.rcvQueue, List.length_map]
    have total := coupled.nearLocal.outSound.taken_length_add
    have offset : place - out.taken.length =
        place + far.kcp.rcvQueue.length - far.kcp.rcvNxt.toNat := by omega
    rw [offset] at there
    exact HeldAt.rcvQueue seg (by omega) there same

theorem Coupled.nothingLost {near far : Peer} {out inc : Link Fragment}
    (coupled : Coupled near far out inc) : NothingLost near far := by
  intro before entry after accepted unread index seg found
  obtain ⟨read, rest, split, received, taken⟩ := coupled.sends.received
  have readLength : read.length ≤ before.length := by
    rw [received, List.length_map] at unread
    exact unread
  have readWithin : read <+: near.accepted := by
    rw [split]
    exact List.prefix_append _ _
  have beforeWithin : before <+: near.accepted := by
    rw [accepted]
    exact List.prefix_append _ _
  obtain ⟨unreadBefore, rfl⟩ :=
    List.prefix_of_prefix_length_le readWithin beforeWithin readLength
  apply coupled.heldAt
  · rw [coupled.sends.accepted, accepted]
    exact fragments_getElem? found
  · rw [taken, fragments, List.length_map, List.flatMap_append, List.length_append]
    omega

theorem Coupled.delivers {near far : Peer} {out inc : Link Fragment}
    (coupled : Coupled near far out inc) : Delivers near far where
  received_prefix := by
    obtain ⟨read, rest, split, received, -⟩ := coupled.sends.received
    rw [received, split, List.map_append]
    exact List.prefix_append _ _
  nothing_lost := coupled.nothingLost

/-- In every run of two endpoints over a network that loses, duplicates, delays
and reorders, as long as fewer than `2 ^ 31` segments were sent either way, each
endpoint has received a prefix of what the other got accepted, and every segment
of the remaining messages is still held by one of the two. -/
theorem delivery (pair : Pair) (reachable : Reachable pair)
    (fewNear : pair.near.sent < 2 ^ 31) (fewFar : pair.far.sent < 2 ^ 31) :
    Delivers pair.near pair.far ∧ Delivers pair.far pair.near := by
  obtain ⟨out, inc, coupled⟩ := Reachable.coupled reachable fewNear fewFar
  exact ⟨coupled.delivers, coupled.symm.delivers⟩

/-- A run in which a message of two bytes is sent, arrives and is received. -/
def greeted : Pair :=
  let near := Peer.start.call (.send [104, 105] 2 100 110)
  { near := near
    far := (Peer.start.call (.input (near.wire.headD []))).call (.recv 2048) }

theorem greeted_reachable : Reachable greeted := by
  have sent := Relation.ReflTransGen.single
    (Step.near Pair.start (.send [104, 105] 2 100 110) trivial)
  have arrived : greeted.near.wire.headD [] ∈ greeted.near.wire := by decide
  have room : (0 : Int) ≤ (2048 : Int32).toInt := by decide
  exact (sent.tail (Step.far _ (.input _) arrived)).tail (Step.far _ (.recv 2048) room)

theorem delivery_greeted :
    greeted.far.received = [[104, 105]] ∧
      Delivers greeted.near greeted.far ∧ Delivers greeted.far greeted.near :=
  ⟨by decide, delivery greeted greeted_reachable (by decide) (by decide)⟩

end KcpTest.Endpoint
