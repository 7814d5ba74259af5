import KcpTest.Endpoint.Sending
import KcpTest.Kcp.FlushOutput

/-!
Contract: when the message of a `kcpSend` leaves the endpoint.

Owns: the two outcomes of a `kcpSend` with an idle send queue and room in the
send window. If the second update finds the flush timer expired, every segment
of the message is handed to `kcp_udp_output`; otherwise all of them wait for a
later update.
-/

set_option autoImplicit false

namespace KcpTest.Endpoint

open KcpTest.Kcp

/-- The segments of the message: what `ikcp_send` appends between the two
updates. -/
def messageSegments (kcp : Kcpcb) (buffer : Bytes) (len : Int32) (before : Int64) :
    List Segment :=
  (kcpSendQueued kcp buffer len before).sndQueue.drop
    (ikcpUpdate kcp (clock32 before)).1.sndQueue.length

/-- The second update of a `kcpSend` flushes. -/
def SecondDue (kcp : Kcpcb) (before after : Int64) : Prop :=
  FlushDue (ikcpUpdate kcp (clock32 before)).1 (clock32 after)

instance (kcp : Kcpcb) (before after : Int64) : Decidable (SecondDue kcp before after) := by
  unfold SecondDue
  infer_instance

/-- Every segment of the message is in a buffer handed to `kcp_udp_output`, and
none is left in `snd_queue`. -/
structure Transmits (kcp : Kcpcb) (buffer : Bytes) (len : Int32) (before after : Int64) :
    Prop where
  handed : HandedOver kcp.conv kcp.sndNxt (messageSegments kcp buffer len before)
    (kcpSend kcp buffer len before after).2
  empty : (kcpSend kcp buffer len before after).1.sndQueue = []

/-- Every segment of the message waits in `snd_queue`, and the second update
hands nothing to `kcp_udp_output`. -/
structure Defers (kcp : Kcpcb) (buffer : Bytes) (len : Int32) (before after : Int64) :
    Prop where
  waiting : (kcpSend kcp buffer len before after).1.sndQueue =
    messageSegments kcp buffer len before
  quiet : (kcpSend kcp buffer len before after).2 = (ikcpUpdate kcp (clock32 before)).2

/-! ### The block in front of the second update -/

theorem messageSegments_of_idle {kcp : Kcpcb} (idle : kcp.sndQueue = []) (buffer : Bytes)
    (len : Int32) (before : Int64) :
    messageSegments kcp buffer len before = (kcpSendQueued kcp buffer len before).sndQueue := by
  rw [messageSegments, (ikcpUpdate_keepsWindow idle (clock32 before)).sndQueue, idle]
  rfl

/-- What `Appended` finds are the segments of the message. -/
theorem Appended.spells {kcp : Kcpcb} {buffer : Bytes} {len : Int32} {before : Int64}
    (appended : Appended kcp buffer len before) :
    Spells (buffer.take len.toInt.toNat)
      ((messageSegments kcp buffer len before).map Segment.fragment) := by
  obtain ⟨segs, queued, spells, -⟩ := appended
  rw [messageSegments, queued, List.drop_left]
  exact spells

section Steps

variable {kcp : Kcpcb} (formed : WellFormed kcp)
include formed

theorem WellFormed.kcpSendQueued_eq (buffer : Bytes) (len : Int32) (before : Int64) :
    ∃ queue, kcpSendQueued kcp buffer len before =
      { (ikcpUpdate kcp (clock32 before)).1 with sndQueue := queue } := by
  have updated := formed.update (clock32 before)
  rw [kcpSendQueued]
  generalize (ikcpUpdate kcp (clock32 before)).1 = first at updated ⊢
  rcases updated.ikcpSend_cases buffer len with ⟨-, same⟩ | ⟨segs, -, result, -, -⟩
  · exact ⟨first.sndQueue, same⟩
  · exact ⟨first.sndQueue ++ segs, result⟩

/-- The second update meets the timer of the first one. -/
theorem WellFormed.flushDue_queued_iff (buffer : Bytes) (len : Int32) (before after : Int64) :
    FlushDue (kcpSendQueued kcp buffer len before) (clock32 after) ↔
      SecondDue kcp before after := by
  obtain ⟨queue, result⟩ := formed.kcpSendQueued_eq buffer len before
  rw [result, SecondDue, FlushDue, FlushDue]

theorem WellFormed.queued_updated (buffer : Bytes) (len : Int32) (before : Int64) :
    (kcpSendQueued kcp buffer len before).updated ≠ 0 := by
  obtain ⟨queue, result⟩ := formed.kcpSendQueued_eq buffer len before
  rw [result]
  exact ikcpUpdate_updated kcp (clock32 before)

/-- The send window in front of the second update is the one before the call. -/
theorem WellFormed.queued_keepsWindow (idle : kcp.sndQueue = []) (buffer : Bytes) (len : Int32)
    (before : Int64) :
    (kcpSendQueued kcp buffer len before).sndNxt = kcp.sndNxt ∧
      (kcpSendQueued kcp buffer len before).sndUna = kcp.sndUna ∧
      (kcpSendQueued kcp buffer len before).rmtWnd = kcp.rmtWnd := by
  obtain ⟨queue, result⟩ := formed.kcpSendQueued_eq buffer len before
  have keeps := ikcpUpdate_keepsWindow idle (clock32 before)
  rw [result]
  exact ⟨keeps.sndNxt, keeps.sndUna, keeps.rmtWnd⟩

theorem WellFormed.queued_hasRoom (idle : kcp.sndQueue = []) (buffer : Bytes) (len : Int32)
    (before : Int64) {count : Nat} (room : HasRoom kcp count) :
    HasRoom (kcpSendQueued kcp buffer len before) count := by
  have queued : WellFormed (kcpSendQueued kcp buffer len before) :=
    (formed.update (clock32 before)).send buffer len
  have sndWnd : (kcpSendQueued kcp buffer len before).sndWnd = kcp.sndWnd :=
    congrArg Config.sndWnd (queued.config.trans formed.config.symm)
  obtain ⟨sndNxt, sndUna, rmtWnd⟩ := formed.queued_keepsWindow idle buffer len before
  rw [HasRoom, sndNxt, sndUna, sndWnd, rmtWnd]
  exact room

/-! ### The two outcomes -/

/-- A flush with room takes the whole message. -/
theorem WellFormed.transmits {buffer : Bytes} {len : Int32} {before after : Int64}
    (idle : kcp.sndQueue = [])
    (room : HasRoom kcp (messageSegments kcp buffer len before).length)
    (due : SecondDue kcp before after) : Transmits kcp buffer len before after := by
  rw [messageSegments_of_idle idle] at room
  have queued : WellFormed (kcpSendQueued kcp buffer len before) :=
    (formed.update (clock32 before)).send buffer len
  obtain ⟨sndNxt, -⟩ := formed.queued_keepsWindow idle buffer len before
  have conv : (kcpSendQueued kcp buffer len before).conv = kcp.conv :=
    queued.conv.trans formed.conv.symm
  obtain ⟨tsFlush, -, -, flushed⟩ := ikcpUpdate_of_due (formed.queued_updated buffer len before)
    ((formed.flushDue_queued_iff buffer len before after).mpr due)
  obtain ⟨empty, handed⟩ := ikcpFlush_handsOver
    { kcpSendQueued kcp buffer len before with
      current := clock32 after
      tsFlush := rearmedTimer (kcpSendQueued kcp buffer len before) (clock32 after) tsFlush }
    (formed.queued_updated buffer len before)
    (by
      show (kcpSendQueued kcp buffer len before).config.nocwnd ≠ 0
      rw [queued.config]
      decide)
    (by
      show (kcpSendQueued kcp buffer len before).config.sndWnd.toNat ≤ 2 ^ 31
      rw [queued.config]
      decide)
    (formed.queued_hasRoom idle buffer len before room)
  rw [← flushed] at empty handed
  refine { handed := ?_, empty := ?_ }
  · rw [kcpSend_snd, messageSegments_of_idle idle]
    obtain ⟨sent, cores, whole⟩ := handed
    refine ⟨sent, ?_, ?_⟩
    · rw [← conv, ← sndNxt]
      exact cores
    · intro seg member
      obtain ⟨packet, inPackets, carried⟩ := whole seg member
      exact ⟨packet, List.mem_append_right _ inPackets, carried⟩
  · rw [kcpSend_fst]
    exact empty

/-- Without a flush the message stays queued. -/
theorem WellFormed.defers {buffer : Bytes} {len : Int32} {before after : Int64}
    (idle : kcp.sndQueue = []) (waiting : ¬ SecondDue kcp before after) :
    Defers kcp buffer len before after := by
  have same := ikcpUpdate_of_not_due (formed.queued_updated buffer len before)
    ((formed.flushDue_queued_iff buffer len before after).not.mpr waiting)
  refine { waiting := ?_, quiet := ?_ }
  · rw [kcpSend_fst, same, messageSegments_of_idle idle]
  · rw [kcpSend_snd, same]
    exact List.append_nil _

/-- Two updates in one millisecond: the second one never flushes. -/
theorem WellFormed.not_secondDue (clock : Int64) : ¬ SecondDue kcp clock clock := by
  have interval : kcp.interval.toNat = 10 := by
    show kcp.config.interval.toNat = 10
    rw [formed.config]
    rfl
  exact ikcpUpdate_not_due_again kcp (clock32 clock) (by omega)

end Steps

/-- In every state an endpoint reaches with an idle send queue and room for the
message, `kcpSend` hands over the whole message if its second update flushes,
and leaves the whole message queued if not. -/
theorem sends_on_schedule (calls : List Call) (buffer : Bytes) (len : Int32)
    (before after : Int64) (idle : (runCalls createKCP calls).1.sndQueue = [])
    (room : HasRoom (runCalls createKCP calls).1
      (messageSegments (runCalls createKCP calls).1 buffer len before).length) :
    (SecondDue (runCalls createKCP calls).1 before after →
        Transmits (runCalls createKCP calls).1 buffer len before after) ∧
      (¬ SecondDue (runCalls createKCP calls).1 before after →
        Defers (runCalls createKCP calls).1 buffer len before after) := by
  have formed := WellFormed.createKCP.runCalls calls
  constructor
  · intro due
    exact formed.transmits idle room due
  · intro waiting
    exact formed.defers idle waiting

theorem sends_on_schedule_first : Transmits createKCP [104] 1 100 110 :=
  (sends_on_schedule [] [104] 1 100 110 rfl (by unfold HasRoom; decide)).1 (by decide)

/-- The first message of a fresh endpoint, within one millisecond. -/
theorem not_always_transmits :
    ¬ ∀ (calls : List Call) (buffer : Bytes) (len : Int32) (before after : Int64),
      before ≤ after → (runCalls createKCP calls).1.sndQueue = [] →
      HasRoom (runCalls createKCP calls).1
        (messageSegments (runCalls createKCP calls).1 buffer len before).length →
      Transmits (runCalls createKCP calls).1 buffer len before after := by
  intro transmits
  have empty := (transmits [] [104] 1 100 100 (by decide) rfl (by unfold HasRoom; decide)).empty
  have waiting : Defers createKCP [104] 1 100 100 :=
    WellFormed.createKCP.defers rfl (WellFormed.createKCP.not_secondDue 100)
  have queued : (messageSegments createKCP [104] 1 100).length = 1 := by decide
  have none' : messageSegments createKCP [104] 1 100 = [] := waiting.waiting.symm.trans empty
  rw [none'] at queued
  exact absurd queued (by decide)

end KcpTest.Endpoint
