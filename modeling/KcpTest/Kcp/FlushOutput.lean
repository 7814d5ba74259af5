import KcpTest.Kcp.FlushEffect

/-!
Contract: what a flush hands over.

Owns: the admission of the whole send queue when the window has room, the
guarantee that every segment transmitted for the first time is in one of the
packets of the flush, and what an update leaves of the window and the timer.
-/

set_option autoImplicit false

namespace KcpTest.Kcp

open KcpTest.Library

/-! ### Admission with room -/

/-- With room for the whole queue, the loop moves all of it, and none of the
moved segments has been transmitted. -/
theorem admitLoop_all (wnd cwnd : UInt32) (half : cwnd.toNat ≤ 2 ^ 31) (queue : List Segment)
    (kcp : Kcpcb) (room : (kcp.sndNxt - kcp.sndUna).toNat + queue.length ≤ cwnd.toNat) :
    ∃ fresh,
      admitLoop wnd cwnd queue kcp =
        { kcp with
          sndQueue := []
          sndBuf := kcp.sndBuf ++ fresh
          sndNxt := kcp.sndNxt + UInt32.ofNat queue.length } ∧
      fresh.map Segment.core = numbered kcp.conv kcp.sndNxt queue ∧
      ∀ seg ∈ fresh, seg.xmit = 0 := by
  induction queue generalizing kcp with
  | nil => exact ⟨[], by simp [admitLoop], rfl, by simp⟩
  | cons newseg queue inductionHypothesis =>
      rw [List.length_cons] at room
      have inside : itimediff kcp.sndNxt (kcp.sndUna + cwnd) < 0 :=
        itimediff_window_neg (by omega) half
      have onward : (kcp.sndNxt + 1 - kcp.sndUna).toNat = (kcp.sndNxt - kcp.sndUna).toNat + 1 := by
        have shift : kcp.sndNxt + 1 - kcp.sndUna = (kcp.sndNxt - kcp.sndUna) + 1 := by
          rw [UInt32.sub_eq_add_neg, UInt32.sub_eq_add_neg, UInt32.add_assoc, UInt32.add_assoc,
            UInt32.add_comm 1]
        rw [shift]
        exact toNat_succ (by omega)
      obtain ⟨fresh, result, cores, unsent⟩ := inductionHypothesis
        { kcp with
          sndBuf := kcp.sndBuf ++ [admitSegment kcp wnd newseg]
          sndNxt := kcp.sndNxt + 1 }
        (by
          show (kcp.sndNxt + 1 - kcp.sndUna).toNat + queue.length ≤ cwnd.toNat
          omega)
      refine ⟨admitSegment kcp wnd newseg :: fresh, ?_, ?_, ?_⟩
      · have count : kcp.sndNxt + 1 + UInt32.ofNat queue.length =
            kcp.sndNxt + UInt32.ofNat (queue.length + 1) := by
          rw [UInt32.ofNat_add, UInt32.add_assoc, UInt32.add_comm 1]
          rfl
        rw [admitLoop, if_pos inside, result]
        simp [count]
      · rw [List.map_cons, cores]
        rfl
      · intro seg member
        rcases List.mem_cons.mp member with rfl | later
        · rfl
        · exact unsent seg later

/-! ### The packets -/

theorem Segment.encode_ne_nil (seg : Segment) : seg.encode ≠ [] := by
  apply List.ne_nil_of_length_pos
  rw [Segment.encode_length]
  omega

/-- The segment as this flush transmits it, if it does. -/
def transmitted (kcp : Kcpcb) (wnd : UInt32) (segment : Segment) : Option Segment :=
  (sendReason kcp segment).map (stamp kcp wnd segment)

theorem flushSegment_packs (kcp : Kcpcb) (wnd : UInt32) (pass : DataPass) (segment : Segment)
    {values : List Segment} (packs : pass.staging.Packs Segment.encode values) :
    (flushSegment kcp wnd pass segment).staging.Packs Segment.encode
      (values ++ (transmitted kcp wnd segment).toList) := by
  cases decided : sendReason kcp segment with
  | none => simpa [flushSegment, transmitted, decided] using packs
  | some reason =>
      simp only [flushSegment, transmitted, decided]
      exact packs.put Segment.encode_ne_nil kcp.mtu.toNat _

/-- The data loop loses none of the segments it transmits. -/
theorem foldl_flushSegment_packs (kcp : Kcpcb) (wnd : UInt32) (buf : List Segment)
    (pass : DataPass) {values : List Segment}
    (packs : pass.staging.Packs Segment.encode values) :
    (buf.foldl (flushSegment kcp wnd) pass).staging.Packs Segment.encode
      (values ++ buf.filterMap (transmitted kcp wnd)) := by
  induction buf generalizing pass values with
  | nil => simpa using packs
  | cons segment buf inductionHypothesis =>
      have step := inductionHypothesis _ (flushSegment_packs kcp wnd pass segment packs)
      rw [List.foldl_cons]
      cases sent : transmitted kcp wnd segment with
      | none => simpa [sent] using step
      | some value => simpa [sent] using step

theorem foldl_putAck_packs (mtu : UInt32) (acks : List (UInt32 × UInt32))
    (pass : Staging × Segment) {values : List Segment}
    (packs : pass.1.Packs Segment.encode values) :
    ∃ more, (acks.foldl (putAck mtu) pass).1.Packs Segment.encode more := by
  induction acks generalizing pass values with
  | nil => exact ⟨values, packs⟩
  | cons ack acks inductionHypothesis =>
      rw [List.foldl_cons]
      apply inductionHypothesis
      rw [putAck_fst]
      exact packs.put Segment.encode_ne_nil mtu.toNat { pass.2 with sn := ack.1, ts := ack.2 }

theorem putProbe_packs (kcp : Kcpcb) (seg : Segment) (ask cmd : UInt32) {staging : Staging}
    {values : List Segment} (packs : staging.Packs Segment.encode values) :
    ∃ more, (putProbe kcp seg ask cmd staging).Packs Segment.encode more := by
  unfold putProbe
  split
  · exact ⟨_, packs.put Segment.encode_ne_nil kcp.mtu.toNat { seg with cmd := cmd }⟩
  · exact ⟨values, packs⟩

theorem probeStaging_packs (kcp : Kcpcb) :
    ∃ values, (probeStaging kcp).Packs Segment.encode values := by
  obtain ⟨acks, ackPacks⟩ := foldl_putAck_packs kcp.mtu kcp.acklist
    (Packing.Staging.empty, flushTemplate kcp) Packing.Staging.Packs.empty
  obtain ⟨asks, askPacks⟩ :=
    putProbe_packs (probeStage kcp) (ackStage kcp).2 ikcpAskSend ikcpCmdWask ackPacks
  exact putProbe_packs (probeStage kcp) (ackStage kcp).2 ikcpAskTell ikcpCmdWins askPacks

/-- A segment of `snd_buf` that was never transmitted is transmitted now. -/
theorem filterMap_transmitted_core (kcp : Kcpcb) (wnd : UInt32) (fresh : List Segment)
    (unsent : ∀ seg ∈ fresh, seg.xmit = 0) :
    (fresh.filterMap (transmitted kcp wnd)).map Segment.core = fresh.map Segment.core := by
  induction fresh with
  | nil => rfl
  | cons seg fresh inductionHypothesis =>
      have first : transmitted kcp wnd seg = some (stamp kcp wnd seg .first) := by
        simp [transmitted, sendReason, unsent seg List.mem_cons_self]
      rw [List.filterMap_cons_some first, List.map_cons, List.map_cons, stamp_core,
        inductionHypothesis fun other member => unsent other (List.mem_cons_of_mem _ member)]

/-! ### A flush with room -/

/-- The segments, numbered from `nxt`, are each whole in one of the packets. -/
def HandedOver (conv nxt : UInt32) (queue : List Segment) (packets : List Datagram) : Prop :=
  ∃ sent : List Segment, sent.map Segment.core = numbered conv nxt queue ∧
    ∀ seg ∈ sent, ∃ packet ∈ packets, ∃ group : List Segment,
      packet = group.flatMap Segment.encode ∧ seg ∈ group

/-- The window `ikcp_flush` computes has room for everything queued. -/
def HasRoom (kcp : Kcpcb) (count : Nat) : Prop :=
  (kcp.sndNxt - kcp.sndUna).toNat + count ≤ (imin kcp.sndWnd kcp.rmtWnd).toNat

theorem imin_toNat_le (a b : UInt32) : (imin a b).toNat ≤ a.toNat := by
  unfold imin
  split
  · exact Nat.le_refl _
  · rename_i larger
    have := UInt32.le_iff_toNat_le.not.mp larger
    omega

theorem admitStage_all {kcp : Kcpcb} (uncontrolled : kcp.nocwnd ≠ 0)
    (half : kcp.sndWnd.toNat ≤ 2 ^ 31) (room : HasRoom kcp kcp.sndQueue.length) :
    ∃ fresh, (admitStage kcp).sndQueue = [] ∧
      (admitStage kcp).sndBuf = kcp.sndBuf ++ fresh ∧
      fresh.map Segment.core = numbered kcp.conv kcp.sndNxt kcp.sndQueue ∧
      ∀ seg ∈ fresh, seg.xmit = 0 := by
  obtain ⟨tsProbe, probeWait, probe, probed⟩ := probeTimer_eq { kcp with acklist := [] }
  have window : sendWindow { probeStage kcp with probe := 0 } = imin kcp.sndWnd kcp.rmtWnd := by
    rw [probeStage, probed, sendWindow, if_neg uncontrolled]
  have widthHalf := (imin_toNat_le kcp.sndWnd kcp.rmtWnd).trans half
  simp only [admitStage, window]
  rw [probeStage, probed]
  obtain ⟨fresh, admitted, cores, unsent⟩ :=
    admitLoop_all (ackStage kcp).2.wnd (imin kcp.sndWnd kcp.rmtWnd) widthHalf kcp.sndQueue
      { kcp with acklist := [], tsProbe := tsProbe, probeWait := probeWait, probe := 0 } room
  refine ⟨fresh, ?_, ?_, cores, unsent⟩
  · rw [admitted]
  · rw [admitted]

/-- With room, a flush empties the send queue into its packets. -/
theorem ikcpFlush_handsOver (kcp : Kcpcb) (busy : kcp.updated ≠ 0)
    (uncontrolled : kcp.nocwnd ≠ 0) (half : kcp.sndWnd.toNat ≤ 2 ^ 31)
    (room : HasRoom kcp kcp.sndQueue.length) :
    (ikcpFlush kcp).1.sndQueue = [] ∧
      HandedOver kcp.conv kcp.sndNxt kcp.sndQueue (ikcpFlush kcp).2 := by
  obtain ⟨fresh, queue, buf, cores, unsent⟩ := admitStage_all uncontrolled half room
  obtain ⟨ssthresh, cwnd, incr, result⟩ := updateSsthresh_eq
    { admitStage kcp with
      sndBuf := (dataStage kcp).passed
      xmit := (dataStage kcp).xmit
      state := (dataStage kcp).state }
    (dataStage kcp).change (dataStage kcp).lost (sendWindow { probeStage kcp with probe := 0 })
  rw [ikcpFlush_stages busy, result]
  refine ⟨queue, fresh.filterMap (transmitted (admitStage kcp) (ackStage kcp).2.wnd), ?_, ?_⟩
  · rw [filterMap_transmitted_core _ _ _ unsent, cores]
  · intro seg member
    obtain ⟨values, staged⟩ := probeStaging_packs kcp
    have packs : (dataStage kcp).staging.Packs Segment.encode
        (values ++ (admitStage kcp).sndBuf.filterMap
          (transmitted (admitStage kcp) (ackStage kcp).2.wnd)) :=
      foldl_flushSegment_packs _ _ _ _ staged
    apply packs.finish Segment.encode_ne_nil
    rw [buf, List.filterMap_append]
    exact List.mem_append_right _ (List.mem_append_right _ member)

/-! ### Around an update -/

/-- What a flush leaves of the window and of the update timer. -/
structure FlushKeeps (kcp kcp' : Kcpcb) : Prop where
  sndUna : kcp'.sndUna = kcp.sndUna
  rmtWnd : kcp'.rmtWnd = kcp.rmtWnd
  updated : kcp'.updated = kcp.updated
  tsFlush : kcp'.tsFlush = kcp.tsFlush

theorem ikcpFlush_keeps (kcp : Kcpcb) : FlushKeeps kcp (ikcpFlush kcp).1 := by
  obtain ⟨_, _, _, _, _, _, _, _, _, _, _, _, result⟩ := ikcpFlush_eq kcp
  rw [result]
  exact ⟨rfl, rfl, rfl, rfl⟩

/-- What an update leaves alone when nothing is queued. -/
structure KeepsWindow (kcp kcp' : Kcpcb) : Prop where
  sndQueue : kcp'.sndQueue = kcp.sndQueue
  sndNxt : kcp'.sndNxt = kcp.sndNxt
  sndUna : kcp'.sndUna = kcp.sndUna
  rmtWnd : kcp'.rmtWnd = kcp.rmtWnd

theorem ikcpUpdate_sndUna_rmtWnd (kcp : Kcpcb) (current : UInt32) :
    (ikcpUpdate kcp current).1.sndUna = kcp.sndUna ∧
      (ikcpUpdate kcp current).1.rmtWnd = kcp.rmtWnd := by
  obtain ⟨updated, tsFlush, -, waiting | flushing⟩ := ikcpUpdate_cases kcp current
  · rw [waiting]
    exact ⟨rfl, rfl⟩
  · have keeps := ikcpFlush_keeps
      { kcp with current := current, updated := updated, tsFlush := tsFlush }
    rw [flushing]
    exact ⟨keeps.sndUna, keeps.rmtWnd⟩

theorem ikcpUpdate_keepsWindow {kcp : Kcpcb} (idle : kcp.sndQueue = []) (current : UInt32) :
    KeepsWindow kcp (ikcpUpdate kcp current).1 := by
  obtain ⟨moved, effect, -⟩ := ikcpUpdate_effect kcp current
  obtain ⟨sndUna, rmtWnd⟩ := ikcpUpdate_sndUna_rmtWnd kcp current
  obtain ⟨none', rest⟩ := List.append_eq_nil_iff.mp (effect.queue.symm.trans idle)
  have sndNxt := effect.sndNxt
  rw [none'] at sndNxt
  exact
    { sndQueue := rest.trans idle.symm
      sndNxt := by simpa using sndNxt
      sndUna := sndUna
      rmtWnd := rmtWnd }

/-- A flush sets the timer behind its clock. -/
theorem itimediff_rearmedTimer {kcp : Kcpcb} {current tsFlush : UInt32}
    (interval : 0 < kcp.interval.toNat ∧ kcp.interval.toNat ≤ 10000)
    (expired : 0 ≤ itimediff current tsFlush) (near : itimediff current tsFlush < 10000) :
    -10000 ≤ itimediff current (rearmedTimer kcp current tsFlush) ∧
      itimediff current (rearmedTimer kcp current tsFlush) < 0 := by
  obtain ⟨pos, small⟩ := interval
  unfold rearmedTimer
  split
  · have same := itimediff_self current
    rw [itimediff_add (by omega) (by omega)]
    omega
  · rw [itimediff_add (by omega) (by omega)] at *
    omega

/-- The flush timer is behind the clock of an update, so another update at the
same clock does not flush. -/
theorem ikcpUpdate_not_due_again (kcp : Kcpcb) (current : UInt32)
    (interval : 0 < kcp.interval.toNat ∧ kcp.interval.toNat ≤ 10000) :
    ¬ FlushDue (ikcpUpdate kcp current).1 current := by
  have started : ∀ kcp : Kcpcb, 0 < kcp.interval.toNat ∧ kcp.interval.toNat ≤ 10000 →
      kcp.updated ≠ 0 → ¬ FlushDue (ikcpUpdate kcp current).1 current := by
    intro kcp interval busy
    by_cases due : FlushDue kcp current
    · obtain ⟨tsFlush, expired, near, flushed⟩ := ikcpUpdate_of_due busy due
      have ahead := itimediff_rearmedTimer interval expired near
      rw [FlushDue, flushed, (ikcpFlush_keeps _).tsFlush]
      show ¬ (0 ≤ itimediff current (rearmedTimer kcp current tsFlush) ∨
        itimediff current (rearmedTimer kcp current tsFlush) < -10000)
      omega
    · rw [ikcpUpdate_of_not_due busy due]
      exact due
  by_cases new : kcp.updated = 0
  · rw [ikcpUpdate_of_new new]
    exact started { kcp with updated := 1, tsFlush := current } interval
      (by show (1 : UInt32) ≠ 0; decide)
  · exact started kcp interval new

/-- Behind an update the block is no longer new. -/
theorem ikcpUpdate_updated (kcp : Kcpcb) (current : UInt32) :
    (ikcpUpdate kcp current).1.updated ≠ 0 := by
  obtain ⟨updated, tsFlush, busy, waiting | flushing⟩ := ikcpUpdate_cases kcp current
  · rw [waiting]
    exact busy
  · rw [flushing, (ikcpFlush_keeps _).updated]
    exact busy

end KcpTest.Kcp
