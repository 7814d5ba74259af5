import KcpTest.Endpoint.Output

/-!
Contract: what `kcpSend` reports to its caller.

Owns: the return value of `kcpSend`, when a message counts as accepted, and the
exact lengths for which the return value tells the two cases apart.
-/

set_option autoImplicit false

namespace KcpTest.Endpoint

open KcpTest.Kcp

/-- `KCPSocket::kcpSend` with its return value, which is `0` whatever `ikcp_send`
answers. -/
def kcpSendReturn (kcp : Kcpcb) (buffer : Bytes) (len : Int32) (before after : Int64) :
    Int32 × Kcpcb × List Datagram :=
  (0, kcpSend kcp buffer len before after)

/-- `ikcp_send`, called between the two updates, appends segments that spell the
message, none of them above the maximum segment size, and changes nothing else. -/
def Appended (kcp : Kcpcb) (buffer : Bytes) (len : Int32) (before : Int64) : Prop :=
  ∃ segs,
    kcpSendQueued kcp buffer len before =
      { (ikcpUpdate kcp (clock32 before)).1 with
        sndQueue := (ikcpUpdate kcp (clock32 before)).1.sndQueue ++ segs } ∧
    Spells (buffer.take len.toInt.toNat) (segs.map Segment.fragment) ∧
    ∀ seg ∈ segs, seg.len ≤ kcp.mss.toNat

/-- The documented result: `0` for a message that was accepted as a whole, and
`-1` for one of which nothing was queued. -/
structure ReportsFaithfully (kcp : Kcpcb) (buffer : Bytes) (len : Int32)
    (before after : Int64) : Prop where
  success : (kcpSendReturn kcp buffer len before after).1 = 0 ↔ Appended kcp buffer len before
  failure : ¬ Appended kcp buffer len before →
    (kcpSendReturn kcp buffer len before after).1 = -1 ∧
      (kcpSendQueued kcp buffer len before).sndQueue =
        (ikcpUpdate kcp (clock32 before)).1.sndQueue

/-! ### What is accepted -/

section Lengths

variable {kcp : Kcpcb} (formed : WellFormed kcp)
include formed

/-- `ikcp_send` takes up to 127 full segments. -/
theorem WellFormed.ikcpSend_nonneg_iff (buffer : Bytes) (len : Int32) :
    0 ≤ (ikcpSend kcp buffer len).1 ↔ 0 ≤ len.toInt ∧ len.toInt ≤ 127 * 1376 := by
  have mss := formed.mss_toNat
  rw [Kcp.ikcpSend_nonneg_iff kcp buffer len formed.stream (by omega) (by omega), mss]
  rfl

/-- The result of `ikcp_send` tells whether the message was accepted; if not,
nothing of it was queued. -/
theorem WellFormed.appended_iff (buffer : Bytes) (len : Int32) (before : Int64) :
    (Appended kcp buffer len before ↔ 0 ≤ len.toInt ∧ len.toInt ≤ 127 * 1376) ∧
      (¬ Appended kcp buffer len before →
        (kcpSendQueued kcp buffer len before).sndQueue =
          (ikcpUpdate kcp (clock32 before)).1.sndQueue) := by
  have updated := formed.update (clock32 before)
  rw [← updated.ikcpSend_nonneg_iff buffer len]
  rcases updated.ikcpSend_cases buffer len with
    ⟨negative, same⟩ | ⟨segs, accepted, result, spells, short⟩
  · have nothing : ¬ Appended kcp buffer len before := by
      rintro ⟨segs, queued, spells, -⟩
      have queue := congrArg Kcpcb.sndQueue queued
      rw [kcpSendQueued, same] at queue
      have none' : segs = [] := List.self_eq_append_right.mp queue
      have := spells.length_pos
      simp [none'] at this
    constructor
    · exact iff_of_false nothing (by omega)
    · intro _
      rw [kcpSendQueued, same]
  · have appended : Appended kcp buffer len before :=
      ⟨segs, result, spells, by rwa [formed.mss_toNat]⟩
    constructor
    · exact iff_of_true appended accepted
    · intro refused
      exact absurd appended refused

end Lengths

/-! ### What is reported -/

theorem ReportsFaithfully.bounds {kcp : Kcpcb} {buffer : Bytes} {len : Int32}
    {before after : Int64} (formed : WellFormed kcp)
    (faithful : ReportsFaithfully kcp buffer len before after) :
    0 ≤ len.toInt ∧ len.toInt ≤ 127 * 1376 :=
  (formed.appended_iff buffer len before).1.mp (faithful.success.mp rfl)

/-- In every state an endpoint reaches and for every buffer and clocks, the
return value is faithful exactly for the lengths from 0 to 127 full segments. With
`len` beyond the buffer `ikcp_send` reads behind it, which is undefined and the
caller's fault; the model cuts the buffer off there (`buffer.take`). -/
theorem reports_faithfully_iff (calls : List Call) (buffer : Bytes) (len : Int32)
    (before after : Int64) :
    ReportsFaithfully (runCalls createKCP calls).1 buffer len before after ↔
      0 ≤ len.toInt ∧ len.toInt ≤ 127 * 1376 := by
  have formed := WellFormed.createKCP.runCalls calls
  constructor
  · exact ReportsFaithfully.bounds formed
  · intro bounds
    have appended := (formed.appended_iff buffer len before).1.mpr bounds
    exact
      { success := iff_of_true rfl appended
        failure := fun refused => absurd appended refused }

/-- One byte more than 127 full segments. -/
theorem not_reports_faithfully :
    ¬ ∀ (calls : List Call) (buffer : Bytes) (len : Int32) (before after : Int64),
      len.toInt ≤ buffer.length →
      ReportsFaithfully (runCalls createKCP calls).1 buffer len before after := by
  intro faithful
  have bounds := (faithful [] (List.replicate 174753 0) 174753 0 0
    (by rw [List.length_replicate]; decide)).bounds WellFormed.createKCP
  exact absurd bounds.2 (by decide)

end KcpTest.Endpoint
