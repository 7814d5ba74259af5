import KcpTest.Kcp.FlushStages

/-!
Contract: what one `ikcp_flush` or `ikcp_update` can do.

Owns: the effect of a flush on the queues, the kinds of segments its datagrams
carry, and when `ikcp_update` flushes. Later modules reason from these effects
and never unfold `ikcpFlush`.
-/

set_option autoImplicit false

namespace KcpTest.Kcp

open KcpTest.Library

/-! ### The effect of a flush -/

/-- The effect of a flush on the fields the protocol rests on. `moved` is the
run of segments it admits to `snd_buf`. -/
structure FlushEffect (kcp kcp' : Kcpcb) (moved : List Segment) : Prop where
  config : kcp'.config = kcp.config
  inbound : kcp'.inbound = kcp.inbound
  queue : kcp.sndQueue = moved ++ kcp'.sndQueue
  sndNxt : kcp'.sndNxt = kcp.sndNxt + UInt32.ofNat moved.length
  sndBuf : kcp'.sndBuf.map Segment.core =
    kcp.sndBuf.map Segment.core ++ numbered kcp.conv kcp.sndNxt moved
  acklist : ∀ ack ∈ kcp'.acklist, ack ∈ kcp.acklist

theorem FlushEffect.refl (kcp : Kcpcb) : FlushEffect kcp kcp [] where
  config := rfl
  inbound := rfl
  queue := rfl
  sndNxt := by simp
  sndBuf := by simp [numbered]
  acklist := fun _ member => member

/-- Every segment held for sending fits a datagram of its own. -/
structure Kcpcb.Short (kcp : Kcpcb) : Prop where
  room : 24 ≤ kcp.mtu.toNat
  queue : ∀ seg ∈ kcp.sndQueue, 24 + seg.len ≤ kcp.mtu.toNat
  buf : ∀ seg ∈ kcp.sndBuf, 24 + seg.len ≤ kcp.mtu.toNat

/-- What an output call receives, given that the control block is short. -/
def Emits (kcp : Kcpcb) (result : Kcpcb × List Datagram) : Prop :=
  kcp.Short → ∀ packet ∈ result.2,
    Packing.Packet Segment.encode (Emitted kcp result.1.sndBuf) kcp.mtu.toNat packet

theorem short_of_admitted {kcp : Kcpcb} (short : kcp.Short) {moved rest buf : List Segment}
    (split : kcp.sndQueue = moved ++ rest) {conv nxt : UInt32}
    (cores : buf.map Segment.core = kcp.sndBuf.map Segment.core ++ numbered conv nxt moved) :
    ∀ seg ∈ buf, 24 + seg.len ≤ kcp.mtu.toNat := by
  intro seg member
  have core : seg.core ∈ kcp.sndBuf.map Segment.core ++ numbered conv nxt moved :=
    cores ▸ List.mem_map_of_mem member
  rcases List.mem_append.mp core with old | new
  · obtain ⟨other, inBuf, same⟩ := List.mem_map.mp old
    have sameData : other.data = seg.data := (congrArg Segment.data same :)
    have := short.buf other inBuf
    rwa [Segment.len, sameData] at this
  · obtain ⟨source, inMoved, -, -, -, sameData⟩ := mem_numbered new
    have := short.queue source (by rw [split]; exact List.mem_append_left _ inMoved)
    rwa [Segment.len, ← sameData] at this

/-- The staging buffer passes the loops in the order of the source. -/
theorem dataStage_fits {kcp : Kcpcb} (short : kcp.Short) :
    (dataStage kcp).staging.Fits Segment.encode (Emitted kcp (admitStage kcp).sndBuf)
      kcp.mtu.toNat := by
  obtain ⟨moved, rest, buf, tsProbe, probeWait, split, admitted, cores⟩ := admitStage_effect kcp
  have sameBuf : (admitStage kcp).sndBuf = buf := by rw [admitted]
  have sameMtu : (admitStage kcp).mtu = kcp.mtu := by rw [admitted]
  have sameNxt : (admitStage kcp).rcvNxt = kcp.rcvNxt := by rw [admitted]
  have probeMtu : (probeStage kcp).mtu = kcp.mtu := by
    obtain ⟨_, _, _, probed⟩ := probeTimer_eq { kcp with acklist := [] }
    rw [probeStage, probed]
  obtain ⟨template, ackFits⟩ := foldl_putAck (P := Emitted kcp buf) short.room
    kcp.acklist (Packing.Staging.empty, flushTemplate kcp) (Template.flushTemplate kcp)
    Packing.Staging.Fits.empty
    fun seg shape member => .ack shape.cmd shape.conv shape.una shape.frg shape.data member
  have probeHolds : ∀ cmd, cmd = ikcpCmdWask ∨ cmd = ikcpCmdWins →
      Emitted kcp buf { (ackStage kcp).2 with cmd := cmd } := fun cmd known =>
    .probe known template.conv template.una template.frg template.data
  have askFits := putProbe_fits ikcpAskSend ikcpCmdWask probeMtu
    short.room template ackFits (probeHolds _ (Or.inl rfl))
  have tellFits := putProbe_fits ikcpAskTell ikcpCmdWins probeMtu
    short.room template askFits (probeHolds _ (Or.inr rfl))
  have fits := foldl_flushSegment_fits (admitStage kcp) (ackStage kcp).2.wnd (admitStage kcp).sndBuf
    { staging := probeStaging kcp, passed := [], xmit := (admitStage kcp).xmit,
      state := (admitStage kcp).state, change := 0, lost := false }
    (P := Emitted kcp (admitStage kcp).sndBuf)
  rw [sameBuf, sameMtu, sameNxt] at fits
  rw [dataStage, sameBuf]
  exact fits tellFits (short_of_admitted short split cores) fun seg member una => .data member una

theorem ikcpFlush_effect (kcp : Kcpcb) :
    ∃ moved, FlushEffect kcp (ikcpFlush kcp).1 moved ∧ Emits kcp (ikcpFlush kcp) := by
  by_cases idle : kcp.updated = 0
  · exact ⟨[], by simpa [ikcpFlush, idle] using FlushEffect.refl kcp,
      fun _ => by simp [ikcpFlush, idle]⟩
  · obtain ⟨moved, rest, buf, tsProbe, probeWait, split, admitted, cores⟩ := admitStage_effect kcp
    have passed := dataStage_passed kcp
    obtain ⟨ssthresh, cwnd, incr, result⟩ := updateSsthresh_eq
      { admitStage kcp with
        sndBuf := (dataStage kcp).passed
        xmit := (dataStage kcp).xmit
        state := (dataStage kcp).state }
      (dataStage kcp).change (dataStage kcp).lost (sendWindow { probeStage kcp with probe := 0 })
    rw [ikcpFlush_stages idle, result]
    refine ⟨moved, ?_, ?_⟩
    · rw [admitted] at passed ⊢
      exact
        { config := rfl
          inbound := rfl
          queue := split
          sndNxt := rfl
          sndBuf := passed.trans cores
          acklist := by simp }
    · intro short packet member
      exact ((dataStage_fits short).finish packet member).mono
        fun seg emitted => emitted.congr rfl rfl rfl passed

/-! ### When an update flushes -/

/-- The flush timer has expired, or is more than ten seconds away. -/
def FlushDue (kcp : Kcpcb) (current : UInt32) : Prop :=
  0 ≤ itimediff current kcp.tsFlush ∨ itimediff current kcp.tsFlush < -10000

instance (kcp : Kcpcb) (current : UInt32) : Decidable (FlushDue kcp current) := by
  unfold FlushDue
  infer_instance

/-- The timer a flush leaves when it had expired at `tsFlush`. -/
def rearmedTimer (kcp : Kcpcb) (current tsFlush : UInt32) : UInt32 :=
  if itimediff current (tsFlush + kcp.interval) ≥ 0 then current + kcp.interval
  else tsFlush + kcp.interval

theorem ikcpUpdate_of_due {kcp : Kcpcb} {current : UInt32} (busy : kcp.updated ≠ 0)
    (due : FlushDue kcp current) :
    ∃ tsFlush, 0 ≤ itimediff current tsFlush ∧ itimediff current tsFlush < 10000 ∧
      ikcpUpdate kcp current =
        ikcpFlush { kcp with current := current, tsFlush := rearmedTimer kcp current tsFlush } := by
  by_cases far : 10000 ≤ itimediff current kcp.tsFlush ∨ itimediff current kcp.tsFlush < -10000
  · refine ⟨current, by rw [itimediff_self], by rw [itimediff_self]; decide, ?_⟩
    simp only [ikcpUpdate, ge_iff_le, if_neg busy, if_pos far, le_refl, if_true, rearmedTimer]
  · obtain ⟨below, above⟩ := not_or.mp far
    have expired : 0 ≤ itimediff current kcp.tsFlush := due.resolve_right above
    refine ⟨kcp.tsFlush, expired, by omega, ?_⟩
    simp only [ikcpUpdate, ge_iff_le, if_neg busy, if_neg far, if_pos expired, rearmedTimer]

theorem ikcpUpdate_of_not_due {kcp : Kcpcb} {current : UInt32} (busy : kcp.updated ≠ 0)
    (waiting : ¬ FlushDue kcp current) :
    ikcpUpdate kcp current = ({ kcp with current := current }, []) := by
  obtain ⟨early, near⟩ := not_or.mp waiting
  have inRange : ¬ (10000 ≤ itimediff current kcp.tsFlush ∨
      itimediff current kcp.tsFlush < -10000) := by omega
  simp only [ikcpUpdate, ge_iff_le, if_neg busy, if_neg inRange, if_neg early]

theorem ikcpUpdate_of_new {kcp : Kcpcb} (new : kcp.updated = 0) (current : UInt32) :
    ikcpUpdate kcp current = ikcpUpdate { kcp with updated := 1, tsFlush := current } current := by
  simp [ikcpUpdate, new]

/-- `ikcp_update` sets the clock and the flush timer, then flushes or not. -/
theorem ikcpUpdate_cases (kcp : Kcpcb) (current : UInt32) :
    ∃ updated tsFlush, updated ≠ 0 ∧
      (ikcpUpdate kcp current =
          ({ kcp with current := current, updated := updated, tsFlush := tsFlush }, []) ∨
        ikcpUpdate kcp current =
          ikcpFlush { kcp with current := current, updated := updated, tsFlush := tsFlush }) := by
  by_cases new : kcp.updated = 0
  · -- a new block flushes at once, as its timer is the clock
    have due : FlushDue { kcp with updated := 1, tsFlush := current } current :=
      Or.inl (by rw [itimediff_self])
    have busy : (1 : UInt32) ≠ 0 := by decide
    obtain ⟨tsFlush, -, -, flushed⟩ := ikcpUpdate_of_due busy due
    rw [ikcpUpdate_of_new new]
    exact ⟨1, _, busy, Or.inr flushed⟩
  · by_cases due : FlushDue kcp current
    · obtain ⟨tsFlush, -, -, flushed⟩ := ikcpUpdate_of_due new due
      exact ⟨kcp.updated, _, new, Or.inr flushed⟩
    · exact ⟨kcp.updated, kcp.tsFlush, new, Or.inl (ikcpUpdate_of_not_due new due)⟩

theorem ikcpUpdate_effect (kcp : Kcpcb) (current : UInt32) :
    ∃ moved,
      FlushEffect kcp (ikcpUpdate kcp current).1 moved ∧ Emits kcp (ikcpUpdate kcp current) := by
  obtain ⟨updated, tsFlush, -, waiting | flushing⟩ := ikcpUpdate_cases kcp current
  · rw [waiting]
    exact ⟨[], { FlushEffect.refl kcp with }, fun _ => by simp⟩
  · rw [flushing]
    obtain ⟨moved, effect, emits⟩ := ikcpFlush_effect
      { kcp with current := current, updated := updated, tsFlush := tsFlush }
    exact ⟨moved, { effect with }, fun short packet member =>
      (emits { short with } packet member).mono
        fun seg emitted => emitted.congr rfl rfl rfl rfl⟩

end KcpTest.Kcp
