import KcpTest.Endpoint.Simulation

/-!
Contract: every call at one endpoint is a run of its two links.

Owns: the relation of an endpoint to the link it sends on and the link it
receives on, what is on the wire in terms of these links, and one simulation
lemma for each call.
-/

set_option autoImplicit false

namespace KcpTest.Endpoint

open KcpTest.Kcp KcpTest.Library KcpTest.Library.SlidingWindow

/-! ### One endpoint and its two links -/

/-- An endpoint is the sender of one link and the receiver of the other. -/
structure Local (kcp : Kcpcb) (out inc : Link Fragment) : Prop where
  formed : WellFormed kcp
  outSound : Sound out
  incSound : Sound inc
  outgoing : Outgoing kcp out
  incoming : Incoming kcp inc

/-- An endpoint runs the sender of one link and the receiver of the other. -/
structure Moves (out inc out' inc' : Link Fragment) : Prop where
  sends : SenderRun out out'
  receives : ReceiverRun inc inc'

theorem Moves.refl (out inc : Link Fragment) : Moves out inc out inc :=
  ⟨Relation.ReflTransGen.refl, Relation.ReflTransGen.refl⟩

theorem Moves.trans {out inc out' inc' out'' inc'' : Link Fragment}
    (first : Moves out inc out' inc') (second : Moves out' inc' out'' inc'') :
    Moves out inc out'' inc'' :=
  ⟨first.sends.trans second.sends, first.receives.trans second.receives⟩

/-- A segment on the wire: its data is among the packets of the outgoing link,
its acknowledgements among those of the incoming link. -/
structure OnWire (out inc : Link Fragment) (seg : Segment) : Prop extends Sendable seg where
  una : seg.una.toNat ∈ inc.floors
  ack : seg.cmd = ikcpCmdAck → seg.sn.toNat ∈ inc.acks
  push : seg.cmd = ikcpCmdPush → (seg.sn.toNat, seg.fragment) ∈ out.packets

theorem OnWire.moves {out inc out' inc' : Link Fragment} {seg : Segment}
    (onWire : OnWire out inc seg) (moves : Moves out inc out' inc') : OnWire out' inc' seg :=
  { onWire with
    una := (SameSender.of_run moves.receives).floors onWire.una
    ack := fun isAck => (SameSender.of_run moves.receives).acks (onWire.ack isAck)
    push := fun isPush => (SameReceiver.of_run moves.sends).packets (onWire.push isPush) }

/-- Seen from the other end: `out` and `inc` change their roles. -/
theorem OnWire.moves_far {out inc out' inc' : Link Fragment} {seg : Segment}
    (onWire : OnWire inc out seg) (moves : Moves out inc out' inc') : OnWire inc' out' seg :=
  { onWire with
    una := (SameReceiver.of_run moves.sends).floors.symm ▸ onWire.una
    ack := fun isAck => (SameReceiver.of_run moves.sends).acks.symm ▸ onWire.ack isAck
    push := fun isPush => (SameSender.of_run moves.receives).packets.symm ▸ onWire.push isPush }

/-- A datagram of segments on the wire. -/
abbrev PacketOnWire (out inc : Link Fragment) (packet : Datagram) : Prop :=
  Packing.Packet Segment.encode (OnWire out inc) 1400 packet

/-! ### Updates -/

/-- A flush emits what the links have: packets of unacknowledged data, and
acknowledgements of what is held. -/
theorem Emitted.onWire {kcp : Kcpcb} {buf : List Segment} {out inc : Link Fragment}
    {seg : Segment} (emitted : Emitted kcp buf seg) (sendable : Sendable seg)
    (isPush : ∀ seg ∈ buf, seg.cmd = ikcpCmdPush) (packets : entries buf ⊆ out.packets)
    (floor : kcp.rcvNxt.toNat ∈ inc.floors)
    (acks : ∀ ack ∈ kcp.acklist, ack.1.toNat ∈ inc.acks) : OnWire out inc seg := by
  refine { sendable with una := ?_, ack := ?_, push := ?_ }
  · cases emitted with
    | ack cmd conv una frg data pending => exact una ▸ floor
    | probe cmd conv una frg data => exact una ▸ floor
    | data member una => exact una ▸ floor
  · intro isAck
    cases emitted with
    | ack cmd conv una frg data pending => exact acks _ pending
    | probe cmd conv una frg data =>
        rw [isAck] at cmd
        exact absurd cmd (by decide)
    | data member una =>
        obtain ⟨kept, inBuf, core⟩ := List.mem_map.mp member
        have same : kept.cmd = seg.cmd := (congrArg Segment.cmd core :)
        rw [isPush kept inBuf, isAck] at same
        exact absurd same (by decide)
  · intro push
    cases emitted with
    | ack cmd conv una frg data pending =>
        rw [push] at cmd
        exact absurd cmd (by decide)
    | probe cmd conv una frg data =>
        rw [push] at cmd
        exact absurd cmd (by decide)
    | data member una =>
        obtain ⟨kept, inBuf, core⟩ := List.mem_map.mp member
        have number : kept.sn = seg.sn := (congrArg Segment.sn core :)
        have fragment : kept.fragment = seg.fragment := (congrArg Segment.fragment core :)
        exact packets ⟨kept, inBuf, by rw [number, fragment]⟩

/-- What was accepted has been sent or waits in `snd_queue`. -/
theorem Local.sent_add {kcp : Kcpcb} {out inc : Link Fragment} (loc : Local kcp out inc) :
    out.sent + kcp.sndQueue.length = out.accepted.length := by
  have length := congrArg List.length loc.outgoing.sndQueue
  have := loc.outSound.sent_le
  simp only [List.length_map, List.length_drop] at length
  omega

theorem Local.update {kcp : Kcpcb} {out inc : Link Fragment} (loc : Local kcp out inc)
    (current : UInt32)
    (few : out.accepted.length - (ikcpUpdate kcp current).1.sndQueue.length < 2 ^ 31) :
    ∃ out' inc', Moves out inc out' inc' ∧ Local (ikcpUpdate kcp current).1 out' inc' ∧
      out'.accepted = out.accepted ∧ inc'.taken = inc.taken ∧
      ∀ packet ∈ (ikcpUpdate kcp current).2, PacketOnWire out' inc' packet := by
  obtain ⟨moved, effect, emits⟩ := ikcpUpdate_effect kcp current
  have range : out.sent + moved.length < 2 ^ 32 := by
    have split := congrArg List.length effect.queue
    have := loc.sent_add
    rw [List.length_append] at split
    omega
  obtain ⟨out', sends, outgoing, accepted, -, packets⟩ := loc.outgoing.flush effect range
  obtain ⟨inc', receives, incoming, taken, floor, acks⟩ := loc.incoming.flush effect
  have formed := loc.formed.flush effect
  refine ⟨out', inc', ⟨sends, receives⟩, ?_, accepted, taken, ?_⟩
  · exact
      { formed := formed
        outSound := loc.outSound.senderRun sends
        incSound := loc.incSound.receiverRun receives
        outgoing := outgoing
        incoming := incoming }
  · intro packet member
    have sound := emits loc.formed.short packet member
    rw [loc.formed.mtu] at sound
    refine sound.mono fun seg emitted => ?_
    exact Emitted.onWire emitted (loc.formed.sendable formed.buf emitted)
      (fun seg inBuf => (formed.buf seg inBuf).2.1) (outgoing.sndBuf ▸ packets) floor acks

/-! ### Messages -/

/-- The fragments of a run of accepted messages. -/
def fragments (entries : List Accepted) : List Fragment :=
  (entries.flatMap Accepted.segments).map Segment.fragment

@[simp] theorem fragments_append (front back : List Accepted) :
    fragments (front ++ back) = fragments front ++ fragments back := by
  simp [fragments]

/-- The place of a segment of a message among all fragments. -/
theorem fragments_getElem? {before after : List Accepted} {entry : Accepted} {index : ℕ}
    {seg : Segment} (found : entry.segments[index]? = some seg) :
    (fragments (before ++ entry :: after))[(before.flatMap Accepted.segments).length + index]? =
      some seg.fragment := by
  have inside : index < entry.segments.length := (List.getElem?_eq_some_iff.mp found).1
  rw [fragments, List.getElem?_map, List.flatMap_append,
    List.getElem?_append_right (Nat.le_add_right _ _), Nat.add_sub_cancel_left,
    List.flatMap_cons, List.getElem?_append_left inside, found]
  rfl

/-- Between its updates `kcpSend` queues the segments of the message it gets
accepted, and nothing when it is refused. -/
theorem kcpSendQueued_spec {kcp : Kcpcb} (formed : WellFormed kcp) (buffer : Bytes)
    (len : Int32) (before after : Int64) :
    let entries := Call.accepted kcp (.send buffer len before after)
    kcpSendQueued kcp buffer len before =
        { (ikcpUpdate kcp (clock32 before)).1 with
          sndQueue := (ikcpUpdate kcp (clock32 before)).1.sndQueue ++
            entries.flatMap Accepted.segments } ∧
      ∀ entry ∈ entries, Spells entry.message (entry.segments.map Segment.fragment) := by
  have updated := formed.update (clock32 before)
  simp only [Call.accepted, kcpSendQueued]
  generalize (ikcpUpdate kcp (clock32 before)).1 = kcp at *
  rcases updated.ikcpSend_cases buffer len with
    ⟨refused, same⟩ | ⟨segs, accepted, result, spells, -⟩
  · rw [if_neg (by omega), same]
    simp
  · rw [if_pos accepted, result]
    simpa using spells

theorem ikcpUpdate_sndQueue_le (kcp : Kcpcb) (current : UInt32) :
    (ikcpUpdate kcp current).1.sndQueue.length ≤ kcp.sndQueue.length := by
  obtain ⟨moved, effect, -⟩ := ikcpUpdate_effect kcp current
  rw [effect.queue, List.length_append]
  omega

/-- Queueing segments, then updating. -/
theorem Local.queueUpdate {kcp queued : Kcpcb} {out inc : Link Fragment}
    (loc : Local kcp out inc) (segs : List Segment)
    (result : queued = { kcp with sndQueue := kcp.sndQueue ++ segs })
    (formed : WellFormed queued) (current : UInt32)
    (few : out.accepted.length + segs.length - (ikcpUpdate queued current).1.sndQueue.length <
      2 ^ 31) :
    ∃ out' inc', Moves out inc out' inc' ∧ Local (ikcpUpdate queued current).1 out' inc' ∧
      out'.accepted = out.accepted ++ segs.map Segment.fragment ∧ inc'.taken = inc.taken ∧
      ∀ packet ∈ (ikcpUpdate queued current).2, PacketOnWire out' inc' packet := by
  have step := SenderStep.accept out (segs.map Segment.fragment)
  have accepted : Local queued
      { out with accepted := out.accepted ++ segs.map Segment.fragment } inc :=
    { formed := formed
      outSound := loc.outSound.senderStep step
      incSound := loc.incSound
      outgoing := result ▸ loc.outgoing.accept loc.outSound segs
      incoming := result ▸ { loc.incoming with } }
  obtain ⟨out', inc', moves, updated, same, taken, wire⟩ :=
    accepted.update current (by simpa using few)
  exact ⟨out', inc',
    ⟨Relation.ReflTransGen.head step moves.sends, moves.receives⟩, updated, same, taken, wire⟩

theorem Local.kcpSend {kcp : Kcpcb} {out inc : Link Fragment} (loc : Local kcp out inc)
    (buffer : Bytes) (len : Int32) (before after : Int64) {entries : List Accepted}
    (accepted : Call.accepted kcp (.send buffer len before after) = entries)
    (few : out.accepted.length + (entries.flatMap Accepted.segments).length -
      (kcpSend kcp buffer len before after).1.sndQueue.length < 2 ^ 31) :
    ∃ out' inc', Moves out inc out' inc' ∧
      Local (kcpSend kcp buffer len before after).1 out' inc' ∧
      out'.accepted = out.accepted ++ fragments entries ∧
      inc'.taken = inc.taken ∧
      ∀ packet ∈ (kcpSend kcp buffer len before after).2, PacketOnWire out' inc' packet := by
  obtain ⟨queued, -⟩ := kcpSendQueued_spec loc.formed buffer len before after
  have formed : WellFormed (kcpSendQueued kcp buffer len before) :=
    (loc.formed.update (clock32 before)).send buffer len
  rw [accepted] at queued
  rw [kcpSend_fst] at few ⊢
  rw [kcpSend_snd]
  have shrinks := ikcpUpdate_sndQueue_le (kcpSendQueued kcp buffer len before) (clock32 after)
  have length := congrArg (fun kcp => kcp.sndQueue.length) queued
  simp only [List.length_append] at length
  generalize kcpSendQueued kcp buffer len before = kcp₂ at *
  obtain ⟨out₁, inc₁, moves₁, loc₁, accepted₁, taken₁, wire₁⟩ :=
    loc.update (clock32 before) (by omega)
  obtain ⟨out₂, inc₂, moves₂, loc₂, accepted₂, taken₂, wire₂⟩ :=
    loc₁.queueUpdate _ queued formed (clock32 after) (by rw [accepted₁]; exact few)
  refine ⟨out₂, inc₂, moves₁.trans moves₂, loc₂, by rw [accepted₂, accepted₁, fragments],
    taken₂.trans taken₁, ?_⟩
  intro packet member
  rcases List.mem_append.mp member with first | second
  · exact (wire₁ packet first).mono fun seg onWire => onWire.moves moves₂
  · exact wire₂ packet second

/-! ### Datagrams -/

/-- One segment of the peer is a run of both links. -/
theorem Local.segment {st : InputState} {out inc : Link Fragment} (loc : Local st.kcp out inc)
    {seg : Segment} (onWire : OnWire inc out seg) (fewOut : out.sent < 2 ^ 31)
    (fewInc : inc.sent < 2 ^ 31) :
    ∃ out' inc', Moves out inc out' inc' ∧
      Local (inputSegment st seg.header seg.data).kcp out' inc' ∧
      out'.accepted = out.accepted ∧ out'.sent = out.sent ∧ inc'.taken = inc.taken := by
  have readable : seg.Readable := onWire.toReadable
  have effect := inputSegment_effect st seg.header seg.data
  have formed := loc.formed.keepsOutbound effect.keepsOutbound
  have acknowledges : Acknowledges out seg.header :=
    { una := onWire.una
      ack := fun isAck => onWire.ack (readable.cmd.symm.trans isAck) }
  obtain ⟨unacked, sends, outgoing⟩ :=
    loc.outgoing.release loc.outSound fewOut acknowledges effect
  have received : ∃ inc', ReceiverRun inc inc' ∧
      Incoming (receiveSegment st.kcp seg.header seg.data) inc' ∧ inc'.taken = inc.taken := by
    unfold receiveSegment
    split
    · rename_i isPush
      apply loc.incoming.push loc.incSound fewInc
      rw [readable.frg_eq]
      exact onWire.push (readable.cmd.symm.trans isPush)
    · exact ⟨inc, Relation.ReflTransGen.refl, loc.incoming, rfl⟩
  obtain ⟨inc', receives, incoming, taken⟩ := received
  refine ⟨_, inc', ⟨sends, receives⟩, ?_, rfl, rfl, taken⟩
  exact
    { formed := formed
      outSound := loc.outSound.senderRun sends
      incSound := loc.incSound.receiverRun receives
      outgoing := outgoing
      incoming := incoming.congr effect.inbound fun ack member => effect.acklist ▸ member }

theorem Local.segments {st : InputState} {out inc : Link Fragment} (loc : Local st.kcp out inc)
    {segs : List Segment} (onWire : ∀ seg ∈ segs, OnWire inc out seg)
    (fewOut : out.sent < 2 ^ 31) (fewInc : inc.sent < 2 ^ 31) :
    ∃ out' inc', Moves out inc out' inc' ∧ Local (inputSegments st segs).kcp out' inc' ∧
      out'.accepted = out.accepted ∧ inc'.taken = inc.taken := by
  induction segs generalizing st out inc with
  | nil => exact ⟨out, inc, Moves.refl out inc, loc, rfl, rfl⟩
  | cons seg segs inductionHypothesis =>
      obtain ⟨out₁, inc₁, moves₁, loc₁, accepted₁, sent₁, taken₁⟩ :=
        loc.segment (onWire seg List.mem_cons_self) fewOut fewInc
      have fewInc₁ : inc₁.sent < 2 ^ 31 := by
        rw [(SameSender.of_run moves₁.receives).sent]
        exact fewInc
      obtain ⟨out₂, inc₂, moves₂, loc₂, accepted₂, taken₂⟩ := inductionHypothesis loc₁
        (fun other member => (onWire other (List.mem_cons_of_mem _ member)).moves_far moves₁)
        (by rw [sent₁]; exact fewOut) fewInc₁
      exact ⟨out₂, inc₂, moves₁.trans moves₂, loc₂, accepted₂.trans accepted₁,
        taken₂.trans taken₁⟩

/-- A datagram of the peer is accepted, and is a run of both links. -/
theorem Local.input {kcp : Kcpcb} {out inc : Link Fragment} (loc : Local kcp out inc)
    {packet : Datagram} (onWire : PacketOnWire inc out packet) (fewOut : out.sent < 2 ^ 31)
    (fewInc : inc.sent < 2 ^ 31) :
    ∃ out' inc', Moves out inc out' inc' ∧ Local (ikcpInput kcp packet).2 out' inc' ∧
      out'.accepted = out.accepted ∧ inc'.taken = inc.taken := by
  obtain ⟨segs, rfl, all⟩ := onWire.carries
  have some' : segs ≠ [] := fun none' => onWire.nonempty (by rw [none']; rfl)
  obtain ⟨-, same⟩ := ikcpInput_segments kcp segs some'
    (Nat.lt_of_le_of_lt onWire.length_le (by decide))
    (fun seg member => (all seg member).toReadable)
    fun seg member => (all seg member).conv.trans loc.formed.conv.symm
  have start : Local (InputState.kcp { kcp, flag := false, maxack := 0, latestTs := 0 }) out inc :=
    loc
  obtain ⟨out', inc', moves, after, accepted, taken⟩ := start.segments all fewOut fewInc
  refine ⟨out', inc', moves, ?_, accepted, taken⟩
  exact
    { after with
      formed := after.formed.keepsOutbound same.keepsOutbound
      outgoing := after.outgoing.congr same.sndNxt same.sndQueue same.sndBuf
      incoming := after.incoming.congr same.inbound fun ack member => same.acklist ▸ member }

/-! ### Receiving -/

/-- `rcv_queue` holds the first fragments that were not taken. -/
theorem Local.rcvQueue_prefix {kcp : Kcpcb} {out inc : Link Fragment} (loc : Local kcp out inc)
    {later : List Fragment} (untaken : inc.accepted = inc.taken ++ later) :
    kcp.rcvQueue.map Segment.fragment <+: later := by
  have inOrder := loc.incSound.delivered_prefix
  rw [untaken] at inOrder
  rw [loc.incoming.rcvQueue]
  exact (List.prefix_append_right_inj _).mp inOrder

/-- `ikcp_recv` returns the next message of the peer, or nothing. -/
theorem Local.recv {kcp : Kcpcb} {out inc : Link Fragment} (loc : Local kcp out inc)
    (few : inc.sent < 2 ^ 31) (len : Int32) (buffer : 0 ≤ len.toInt) {later : List Accepted}
    (untaken : inc.accepted = inc.taken ++ fragments later)
    (spelled : ∀ entry ∈ later, Spells entry.message (entry.segments.map Segment.fragment)) :
    ∃ inc' read rest, ReceiverRun inc inc' ∧ Local (ikcpRecv kcp len).kcp out inc' ∧
      later = read ++ rest ∧ Call.received kcp (.recv len) = read.map Accepted.message ∧
      inc'.taken = inc.taken ++ fragments read := by
  rcases ikcpRecv_cases kcp len with
    ⟨refused, same, -⟩ | ⟨ready, -, ret, data, probe, result⟩
  · refine ⟨inc, [], later, Relation.ReflTransGen.refl, ?_, rfl, ?_, by simp [fragments]⟩
    · rw [same]
      exact loc
    · exact if_neg (by omega)
  · have formed := loc.formed.recv len
    have notPeek : ¬ len.toInt < 0 := by omega
    rw [result, if_neg notPeek] at formed ⊢
    have queued := loc.rcvQueue_prefix untaken
    cases later with
    | nil =>
        have empty : kcp.rcvQueue = [] := by simpa [fragments] using queued
        exact absurd empty (ikcpPeeksize_of_nonneg ready).1
    | cons entry rest =>
        have spells := spelled entry List.mem_cons_self
        have split : fragments (entry :: rest) =
            entry.segments.map Segment.fragment ++ fragments rest := by
          simp [fragments]
        rw [split] at queued
        have enough := length_le_of_peeksize ready spells queued
        -- the whole message is at the head of the queue
        have whole : entry.segments.map Segment.fragment <+:
            kcp.rcvQueue.map Segment.fragment :=
          List.prefix_of_prefix_length_le (List.prefix_append _ _) queued (by simpa using enough)
        obtain ⟨more, whole⟩ := whole
        obtain ⟨bytes, left⟩ := mergeFragments_spells spells whole.symm
        rw [← left] at whole
        obtain ⟨inc', receives, incoming, taken⟩ :=
          loc.incoming.take loc.incSound few _ _ whole.symm
        refine ⟨inc', [entry], rest, receives, ?_, rfl, ?_, ?_⟩
        · exact
            { formed := formed
              outSound := loc.outSound
              incSound := loc.incSound.receiverRun receives
              outgoing := { loc.outgoing with }
              incoming := { incoming with } }
        · have returned : (ikcpRecv kcp len).ret ≥ 0 := by
            rw [ret]
            exact Int.natCast_nonneg _
          simp only [Call.received, if_pos returned, data, bytes, List.map_cons, List.map_nil]
        · rw [taken]
          simp [fragments]

end KcpTest.Endpoint
