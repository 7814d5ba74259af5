import KcpTest.Kcp.FlushOutput

/-!
Contract: the segments of one `ikcp_flush`, in the order they are encoded.

Owns: the list of these segments, that the datagrams of a flush are this list
packed, what every one of them announces, and when the packing stays inside the
buffer the control block has for it.
-/

set_option autoImplicit false

namespace KcpTest.Kcp

open KcpTest.Library KcpTest.Library.Packing

/-! ### The list -/

/-- The segments of the acknowledgement loop. -/
def ackSegments (kcp : Kcpcb) : List Segment :=
  kcp.acklist.map fun ack => { flushTemplate kcp with sn := ack.1, ts := ack.2 }

/-- A probe command, when its bit is set. -/
def probeSegment (kcp : Kcpcb) (ask cmd : UInt32) : List Segment :=
  if (probeStage kcp).probe &&& ask ≠ 0 then [{ (ackStage kcp).2 with cmd := cmd }] else []

/-- The segments of the data loop. -/
def dataSegments (kcp : Kcpcb) : List Segment :=
  (admitStage kcp).sndBuf.filterMap (transmitted (admitStage kcp) (ackStage kcp).2.wnd)

/-- Everything a flush encodes. -/
def flushed (kcp : Kcpcb) : List Segment :=
  ackSegments kcp ++ probeSegment kcp ikcpAskSend ikcpCmdWask ++
    probeSegment kcp ikcpAskTell ikcpCmdWins ++ dataSegments kcp

theorem foldl_putAck_eq (mtu : UInt32) (acks : List (UInt32 × UInt32))
    (pass : Staging × Segment) :
    (acks.foldl (putAck mtu) pass).1 =
        pass.1.putAll Segment.encode mtu.toNat
          (acks.map fun ack => { pass.2 with sn := ack.1, ts := ack.2 }) ∧
      ∃ sn ts, (acks.foldl (putAck mtu) pass).2 = { pass.2 with sn := sn, ts := ts } := by
  induction acks generalizing pass with
  | nil => exact ⟨rfl, pass.2.sn, pass.2.ts, rfl⟩
  | cons ack acks inductionHypothesis =>
      rw [List.foldl_cons]
      exact inductionHypothesis (putAck mtu pass ack)

theorem ackStage_fst (kcp : Kcpcb) :
    (ackStage kcp).1 =
      Packing.Staging.empty.putAll Segment.encode kcp.mtu.toNat (ackSegments kcp) :=
  (foldl_putAck_eq kcp.mtu kcp.acklist (Packing.Staging.empty, flushTemplate kcp)).1

/-- The local `seg` keeps the last acknowledgement. -/
theorem ackStage_snd (kcp : Kcpcb) :
    ∃ sn ts, (ackStage kcp).2 = { flushTemplate kcp with sn := sn, ts := ts } :=
  (foldl_putAck_eq kcp.mtu kcp.acklist (Packing.Staging.empty, flushTemplate kcp)).2

theorem putProbe_eq (kcp : Kcpcb) (ask cmd : UInt32) (staging : Staging) :
    putProbe (probeStage kcp) (ackStage kcp).2 ask cmd staging =
      staging.putAll Segment.encode kcp.mtu.toNat (probeSegment kcp ask cmd) := by
  have sameMtu : (probeStage kcp).mtu = kcp.mtu := by
    obtain ⟨_, _, _, probed⟩ := probeTimer_eq { kcp with acklist := [] }
    rw [probeStage, probed]
  unfold putProbe probeSegment
  split
  · rw [sameMtu]
    rfl
  · rfl

theorem foldl_flushSegment_eq (kcp : Kcpcb) (wnd : UInt32) (buf : List Segment)
    (pass : DataPass) :
    (buf.foldl (flushSegment kcp wnd) pass).staging =
      pass.staging.putAll Segment.encode kcp.mtu.toNat (buf.filterMap (transmitted kcp wnd)) := by
  induction buf generalizing pass with
  | nil => rfl
  | cons segment buf inductionHypothesis =>
      rw [List.foldl_cons, inductionHypothesis]
      cases decided : sendReason kcp segment with
      | none => simp [flushSegment, transmitted, decided]
      | some reason =>
          simp [flushSegment, transmitted, decided, putSegment]

/-- The staging buffer has taken the list, one segment after the other. -/
theorem dataStage_staging (kcp : Kcpcb) :
    (dataStage kcp).staging =
      Packing.Staging.empty.putAll Segment.encode kcp.mtu.toNat (flushed kcp) := by
  have sameMtu : (admitStage kcp).mtu = kcp.mtu := by
    obtain ⟨_, _, _, _, _, _, admitted, _⟩ := admitStage_effect kcp
    rw [admitted]
  rw [dataStage, foldl_flushSegment_eq, sameMtu, flushed, Staging.putAll_append,
    Staging.putAll_append, Staging.putAll_append, ← ackStage_fst, ← putProbe_eq, ← putProbe_eq]
  rfl

/-- The datagrams of a flush. -/
theorem ikcpFlush_packets {kcp : Kcpcb} (busy : kcp.updated ≠ 0) :
    (ikcpFlush kcp).2 =
      (Packing.Staging.empty.putAll Segment.encode kcp.mtu.toNat (flushed kcp)).finish := by
  rw [ikcpFlush_stages busy, dataStage_staging]

/-! ### What the segments say -/

/-- Every segment tells the peer what was received and how much room is left. -/
structure Announces (kcp : Kcpcb) (seg : Segment) : Prop where
  una : seg.una = kcp.rcvNxt
  wnd : seg.wnd = ikcpWndUnused kcp

theorem ackSegments_announce {kcp : Kcpcb} {seg : Segment} (member : seg ∈ ackSegments kcp) :
    Announces kcp seg := by
  obtain ⟨ack, -, rfl⟩ := List.mem_map.mp member
  exact ⟨rfl, rfl⟩

theorem probeSegment_announces {kcp : Kcpcb} {ask cmd : UInt32} {seg : Segment}
    (member : seg ∈ probeSegment kcp ask cmd) : Announces kcp seg := by
  obtain ⟨sn, ts, last⟩ := ackStage_snd kcp
  unfold probeSegment at member
  split at member
  · rw [List.mem_singleton.mp member, last]
    exact ⟨rfl, rfl⟩
  · simp at member

/-- A transmitted segment is one of `snd_buf`, stamped. -/
theorem mem_dataSegments {kcp : Kcpcb} {seg : Segment} (member : seg ∈ dataSegments kcp) :
    ∃ kept ∈ (admitStage kcp).sndBuf, seg.core = kept.core ∧ Announces kcp seg := by
  obtain ⟨kept, inBuf, sent⟩ := List.mem_filterMap.mp member
  obtain ⟨reason, -, rfl⟩ := Option.map_eq_some_iff.mp sent
  obtain ⟨sn, ts, last⟩ := ackStage_snd kcp
  obtain ⟨_, _, _, _, _, _, admitted, _⟩ := admitStage_effect kcp
  refine ⟨kept, inBuf, stamp_core _ _ _ _, ?_, ?_⟩
  · show (admitStage kcp).rcvNxt = kcp.rcvNxt
    rw [admitted]
  · show (ackStage kcp).2.wnd = ikcpWndUnused kcp
    rw [last]
    rfl

theorem flushed_announces {kcp : Kcpcb} {seg : Segment} (member : seg ∈ flushed kcp) :
    Announces kcp seg := by
  rcases List.mem_append.mp member with front | data
  · rcases List.mem_append.mp front with front | tell
    · rcases List.mem_append.mp front with ack | ask
      · exact ackSegments_announce ack
      · exact probeSegment_announces ask
    · exact probeSegment_announces tell
  · obtain ⟨_, -, -, announces⟩ := mem_dataSegments data
    exact announces

/-- The list is made of the three kinds of segments a flush emits. -/
theorem flushed_emitted {kcp : Kcpcb} {seg : Segment} (member : seg ∈ flushed kcp) :
    Emitted kcp (admitStage kcp).sndBuf seg := by
  have probe : ∀ ask cmd, cmd = ikcpCmdWask ∨ cmd = ikcpCmdWins →
      seg ∈ probeSegment kcp ask cmd → Emitted kcp (admitStage kcp).sndBuf seg := by
    intro ask cmd known isProbe
    obtain ⟨sn, ts, last⟩ := ackStage_snd kcp
    unfold probeSegment at isProbe
    split at isProbe
    · rw [List.mem_singleton.mp isProbe, last]
      exact .probe known rfl rfl rfl rfl
    · simp at isProbe
  rcases List.mem_append.mp member with front | data
  · rcases List.mem_append.mp front with front | tell
    · rcases List.mem_append.mp front with ack | ask
      · obtain ⟨pending, inList, rfl⟩ := List.mem_map.mp ack
        exact .ack rfl rfl rfl rfl rfl inList
      · exact probe _ _ (Or.inl rfl) ask
    · exact probe _ _ (Or.inr rfl) tell
  · obtain ⟨kept, inBuf, core, announces⟩ := mem_dataSegments data
    refine .data ?_ announces.una
    rw [core]
    exact List.mem_map_of_mem inBuf

/-- In terms of what the flush leaves in `snd_buf`. -/
theorem flushed_emitted_after {kcp : Kcpcb} (busy : kcp.updated ≠ 0) {seg : Segment}
    (member : seg ∈ flushed kcp) : Emitted kcp (ikcpFlush kcp).1.sndBuf seg := by
  obtain ⟨ssthresh, cwnd, incr, result⟩ := updateSsthresh_eq
    { admitStage kcp with
      sndBuf := (dataStage kcp).passed
      xmit := (dataStage kcp).xmit
      state := (dataStage kcp).state }
    (dataStage kcp).change (dataStage kcp).lost (sendWindow { probeStage kcp with probe := 0 })
  rw [ikcpFlush_stages busy, result]
  exact (flushed_emitted member).congr rfl rfl rfl (dataStage_passed kcp)

theorem flushed_packs (kcp : Kcpcb) :
    (Packing.Staging.empty.putAll Segment.encode kcp.mtu.toNat (flushed kcp)).Packs
      Segment.encode (flushed kcp) :=
  Staging.Packs.empty.putAll Segment.encode_ne_nil (flushed kcp)

/-- Each segment of the list is in a datagram of segments of the list. -/
theorem flushed_carried {kcp : Kcpcb} (busy : kcp.updated ≠ 0) {seg : Segment}
    (member : seg ∈ flushed kcp) :
    ∃ packet ∈ (ikcpFlush kcp).2, ∃ group : List Segment, packet = group.flatMap Segment.encode ∧
      seg ∈ group ∧ ∀ other ∈ group, other ∈ flushed kcp := by
  rw [ikcpFlush_packets busy]
  exact (flushed_packs kcp).finish_among Segment.encode_ne_nil member

/-! ### The buffer -/

/-- `ikcp_create` and `ikcp_setmtu` allocate this many bytes for `buffer`, in
unsigned arithmetic that wraps around. -/
def Kcpcb.capacity (kcp : Kcpcb) : UInt32 := (kcp.mtu + ikcpOverhead) * 3

/-- Below `2 ^ 30` neither this product nor `size + need` of `ikcp_flush` wraps. -/
theorem capacity_toNat {kcp : Kcpcb} (narrow : kcp.mtu.toNat < 2 ^ 30) :
    kcp.capacity.toNat = (kcp.mtu.toNat + 24) * 3 := by
  have overhead : ikcpOverhead.toNat = 24 := rfl
  have three : (3 : UInt32).toNat = 3 := rfl
  unfold Kcpcb.capacity
  rw [UInt32.toNat_mul, UInt32.toNat_add, overhead, three]
  omega

/-- `ikcp_setmtu` accepts wider units, and one of them gets a buffer of two bytes. -/
example :
    let (result, kcp) := ikcpSetmtu (ikcpCreate 1) 1431655742
    result = 0 ∧ kcp.capacity = 2 := by
  decide

/-- However far a flush gets, `ptr` has not passed the end of `buffer`. -/
def FlushInBounds (kcp : Kcpcb) : Prop :=
  ∀ front back, flushed kcp = front ++ back →
    (Packing.Staging.empty.putAll Segment.encode kcp.mtu.toNat front).buffer.length ≤
      kcp.capacity.toNat

theorem flushInBounds_iff {kcp : Kcpcb} (narrow : kcp.mtu.toNat < 2 ^ 30) :
    FlushInBounds kcp ↔ ∀ seg ∈ flushed kcp, 24 + seg.len ≤ kcp.capacity.toNat := by
  have wide : kcp.mtu.toNat ≤ kcp.capacity.toNat := by
    rw [capacity_toNat narrow]
    omega
  rw [FlushInBounds, Staging.buffer_le_iff wide]
  simp only [Segment.encode_length]

end KcpTest.Kcp
