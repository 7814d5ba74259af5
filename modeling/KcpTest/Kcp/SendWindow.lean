import KcpTest.Kcp.InputEffect
import KcpTest.Library.SerialWindow

/-!
Contract: the send window of a control block.

Owns: offsets of sequence numbers, what `snd_buf` holds in terms of `snd_una` and
`snd_nxt`, wherever the two counters stand when they wrap around, and the lemma
for each operation that it keeps this, whatever bytes arrive.
-/

set_option autoImplicit false

namespace KcpTest.Kcp

open KcpTest.Library KcpTest.Library.Serial

/-! ### Numbers -/

/-- How far `sn` is ahead of `base`, going round. -/
def snOffset (base sn : UInt32) : Nat := offset base.toBitVec sn.toBitVec

/-- The sequence numbers of a buffer. -/
def numbers (buf : List Segment) : List (BitVec 32) := buf.map fun seg => seg.sn.toBitVec

@[simp] theorem numbers_nil : numbers [] = [] := rfl

@[simp] theorem numbers_cons (seg : Segment) (buf : List Segment) :
    numbers (seg :: buf) = seg.sn.toBitVec :: numbers buf := rfl

@[simp] theorem numbers_append (front back : List Segment) :
    numbers (front ++ back) = numbers front ++ numbers back := by
  simp [numbers]

theorem numbers_sublist {fewer buf : List Segment} (sub : fewer.Sublist buf) :
    (numbers fewer).Sublist (numbers buf) := sub.map _

/-- A retransmission does not renumber. -/
theorem numbers_core (buf : List Segment) : numbers (buf.map Segment.core) = numbers buf := by
  simp [numbers, Segment.core]

theorem numbers_congr {buf buf' : List Segment}
    (cores : buf'.map Segment.core = buf.map Segment.core) : numbers buf' = numbers buf := by
  rw [← numbers_core buf', cores, numbers_core]

/-- Offsets below `2 ^ 31` compare like the numbers they come from. -/
theorem itimediff_eq_offset {base later earlier : UInt32}
    (laterLt : snOffset base later < 2 ^ 31) (earlierLt : snOffset base earlier < 2 ^ 31) :
    itimediff later earlier = (snOffset base later : Int) - snOffset base earlier := by
  unfold snOffset at *
  rw [itimediff_eq_distance]
  apply distance_eq_offset <;> omega

/-- The test against the end of a window. -/
theorem itimediff_end {base sn wnd : UInt32} (snLt : snOffset base sn < 2 ^ 31)
    (wndLt : wnd.toNat < 2 ^ 31) :
    itimediff sn (base + wnd) = (snOffset base sn : Int) - wnd.toNat := by
  have width : snOffset base (base + wnd) = wnd.toNat := offset_add
  rw [← width]
  exact itimediff_eq_offset snLt (by rw [width]; exact wndLt)

/-- The test against the start of a window. -/
theorem snOffset_lt_half {base sn : UInt32} (ahead : 0 ≤ itimediff sn base) :
    snOffset base sn < 2 ^ 31 := by
  have notBehind : 0 ≤ distance sn.toBitVec base.toBitVec := ahead
  have nearer := two_mul_offset_lt notBehind
  unfold snOffset
  omega

/-! ### The sending half -/

/-- What `ikcp_shrink_buf` sets `snd_una` to. -/
def oldest (sndNxt : UInt32) : List Segment → UInt32
  | seg :: _ => seg.sn
  | [] => sndNxt

theorem ikcpShrinkBuf_oldest (kcp : Kcpcb) :
    ikcpShrinkBuf kcp = { kcp with sndUna := oldest kcp.sndNxt kcp.sndBuf } := by
  unfold ikcpShrinkBuf
  split
  · rename_i seg rest filled
    rw [filled]
    rfl
  · rename_i empty
    rw [empty]
    rfl

theorem oldest_congr {sndNxt : UInt32} {buf buf' : List Segment}
    (same : numbers buf' = numbers buf) : oldest sndNxt buf' = oldest sndNxt buf := by
  cases buf with
  | nil =>
      have none' : buf' = [] := by simpa [numbers] using same
      rw [none']
  | cons seg buf =>
      obtain ⟨seg', rest, rfl, first, -⟩ := List.map_eq_cons_iff.mp same
      exact UInt32.toBitVec_inj.mp first

/-- The numbers `snd_buf` may hold: those from `snd_una` to before `snd_nxt`. -/
def Kcpcb.flight (kcp : Kcpcb) : Nat := snOffset kcp.sndUna kcp.sndNxt

/-- `snd_una` is the oldest number in `snd_buf`, whose numbers go up from there to
`snd_nxt`, at most `limit` of them. -/
structure SendWindow (limit : Nat) (kcp : Kcpcb) : Prop where
  sndWnd : kcp.sndWnd.toNat ≤ limit
  sndUna : kcp.sndUna = oldest kcp.sndNxt kcp.sndBuf
  flight_le : kcp.flight ≤ limit
  inFlight : InWindow kcp.sndUna.toBitVec kcp.flight (numbers kcp.sndBuf)

theorem SendWindow.congr {limit : Nat} {kcp kcp' : Kcpcb} (window : SendWindow limit kcp)
    (sndWnd : kcp'.sndWnd = kcp.sndWnd) (sndUna : kcp'.sndUna = kcp.sndUna)
    (sndNxt : kcp'.sndNxt = kcp.sndNxt) (sndBuf : numbers kcp'.sndBuf = numbers kcp.sndBuf) :
    SendWindow limit kcp' := by
  have flight : kcp'.flight = kcp.flight := by rw [Kcpcb.flight, sndUna, sndNxt, Kcpcb.flight]
  refine { sndWnd := ?_, sndUna := ?_, flight_le := ?_, inFlight := ?_ }
  · rw [sndWnd]
    exact window.sndWnd
  · rw [sndUna, sndNxt, oldest_congr sndBuf]
    exact window.sndUna
  · rw [flight]
    exact window.flight_le
  · rw [sndUna, flight, sndBuf]
    exact window.inFlight

theorem SendWindow.length_le {limit : Nat} {kcp : Kcpcb} (window : SendWindow limit kcp) :
    kcp.sndBuf.length ≤ limit := by
  have short := window.inFlight.length_le
  rw [numbers, List.length_map] at short
  exact short.trans window.flight_le

/-- Whatever segments leave `snd_buf`, `ikcp_shrink_buf` restores the window. -/
theorem SendWindow.shrink {limit : Nat} {kcp : Kcpcb} (window : SendWindow limit kcp)
    {buf : List Segment} (sub : buf.Sublist kcp.sndBuf) :
    SendWindow limit (ikcpShrinkBuf { kcp with sndBuf := buf }) := by
  have fewer := window.inFlight.sublist (numbers_sublist sub)
  rw [ikcpShrinkBuf_oldest]
  cases buf with
  | nil =>
      have idle : snOffset kcp.sndNxt kcp.sndNxt = 0 := offset_self _
      exact
        { sndWnd := window.sndWnd
          sndUna := rfl
          flight_le := idle.trans_le (Nat.zero_le limit)
          inFlight := InWindow.nil _ _ }
  | cons seg buf =>
      have inside : snOffset kcp.sndUna seg.sn < kcp.flight :=
        fewer.inside seg.sn.toBitVec List.mem_cons_self
      have shorter : snOffset seg.sn kcp.sndNxt = kcp.flight - snOffset kcp.sndUna seg.sn :=
        offset_rebase (Nat.le_of_lt inside)
      refine { sndWnd := window.sndWnd, sndUna := rfl, flight_le := ?_, inFlight := ?_ }
      · have := window.flight_le
        show snOffset seg.sn kcp.sndNxt ≤ limit
        omega
      · show InWindow seg.sn.toBitVec (snOffset seg.sn kcp.sndNxt) (numbers (seg :: buf))
        rw [shorter]
        exact fewer.from_head

theorem removeAcked_sublist (sn : UInt32) (buf : List Segment) :
    (removeAcked sn buf).Sublist buf := by
  induction buf with
  | nil => exact List.Sublist.refl _
  | cons seg rest inductionHypothesis =>
      simp only [removeAcked]
      split
      · exact List.sublist_cons_self seg rest
      · split
        · exact List.Sublist.refl _
        · exact inductionHypothesis.cons_cons seg

theorem SendWindow.inputAck {limit : Nat} (st : InputState) (h : Header)
    (window : SendWindow limit st.kcp) : SendWindow limit (inputAck st h).kcp := by
  have smoothed : ∃ kcp : Kcpcb, SendWindow limit kcp ∧
      (Kcp.inputAck st h).kcp = ikcpShrinkBuf (ikcpParseAck kcp h.sn) := by
    refine ⟨_, ?_, inputAck_kcp st h⟩
    split
    · obtain ⟨rxRttval, rxSrtt, rxRto, estimated⟩ :=
        ikcpUpdateAck_eq st.kcp (Int32.ofInt (itimediff st.kcp.current h.ts))
      rw [estimated]
      exact window.congr rfl rfl rfl rfl
    · exact window
  obtain ⟨kcp, kept, result⟩ := smoothed
  rw [result]
  rcases ikcpParseAck_eq kcp h.sn with same | removed
  · rw [same]
    exact kept.shrink (List.Sublist.refl _)
  · rw [removed]
    exact kept.shrink (removeAcked_sublist _ _)

theorem SendWindow.inputSegment {limit : Nat} {st : InputState}
    (window : SendWindow limit st.kcp) (h : Header) (data : Bytes) :
    SendWindow limit (inputSegment st h data).kcp := by
  have announced : SendWindow limit { st.kcp with rmtWnd := h.wnd.toUInt32 } :=
    window.congr rfl rfl rfl rfl
  have released : SendWindow limit
      (ikcpShrinkBuf (ikcpParseUna { st.kcp with rmtWnd := h.wnd.toUInt32 } h.una)) :=
    announced.shrink (List.dropWhile_sublist _)
  simp only [Kcp.inputSegment]
  generalize ikcpShrinkBuf (ikcpParseUna _ _) = kcp at released ⊢
  split
  · exact SendWindow.inputAck { st with kcp } h released
  · split
    · obtain ⟨rcvBuf, rcvQueue, rcvNxt, acklist, pushed⟩ := inputPush_eq kcp h data
      rw [pushed]
      exact released.congr rfl rfl rfl rfl
    · split
      · exact released.congr rfl rfl rfl rfl
      · exact released

/-- The end of `ikcp_input` does not touch the window. -/
theorem SendWindow.inputEnd {limit : Nat} {st : InputState} (window : SendWindow limit st.kcp)
    (prevUna : UInt32) :
    SendWindow limit
      (growCwnd (if st.flag then ikcpParseFastack st.kcp st.maxack st.latestTs else st.kcp)
        prevUna) := by
  have marked : SendWindow limit
      (if st.flag then ikcpParseFastack st.kcp st.maxack st.latestTs else st.kcp) := by
    split
    · rcases ikcpParseFastack_eq st.kcp st.maxack st.latestTs with same | skipped
      · rw [same]
        exact window
      · rw [skipped]
        exact window.congr rfl rfl rfl (numbers_congr (markSkipped_core _ _ _))
    · exact window
  generalize (if st.flag then ikcpParseFastack st.kcp st.maxack st.latestTs else st.kcp) = kcp
    at marked ⊢
  obtain ⟨cwnd, incr, grown⟩ := growCwnd_eq kcp prevUna
  rw [grown]
  exact marked.congr rfl rfl rfl rfl

/-! ### Admission -/

theorem SendWindow.admits {limit : Nat} {kcp : Kcpcb} (small : limit < 2 ^ 31)
    (window : SendWindow limit kcp) {cwnd : UInt32} (narrow : cwnd.toNat ≤ limit)
    (room : itimediff kcp.sndNxt (kcp.sndUna + cwnd) < 0) {seg : Segment}
    (next : seg.sn = kcp.sndNxt) :
    SendWindow limit
      { kcp with sndBuf := kcp.sndBuf ++ [seg], sndNxt := kcp.sndNxt + 1 } := by
  have flight_le := window.flight_le
  have inside : kcp.flight < cwnd.toNat := by
    unfold Kcpcb.flight at flight_le ⊢
    rw [itimediff_end (by omega) (by omega)] at room
    omega
  have longer : snOffset kcp.sndUna (kcp.sndNxt + 1) = kcp.flight + 1 :=
    offset_succ (by show kcp.flight + 1 < 2 ^ 32; omega)
  refine { sndWnd := window.sndWnd, sndUna := ?_, flight_le := ?_, inFlight := ?_ }
  · have sndUna := window.sndUna
    cases buf : kcp.sndBuf with
    | nil =>
        rw [buf] at sndUna
        exact sndUna.trans next.symm
    | cons first rest =>
        rw [buf] at sndUna
        exact sndUna
  · show snOffset kcp.sndUna (kcp.sndNxt + 1) ≤ limit
    omega
  · show InWindow kcp.sndUna.toBitVec (snOffset kcp.sndUna (kcp.sndNxt + 1))
      (numbers (kcp.sndBuf ++ [seg]))
    rw [longer, numbers_append]
    refine window.inFlight.push ?_
    show snOffset kcp.sndUna seg.sn = kcp.flight
    rw [next]
    rfl

theorem SendWindow.admitLoop {limit : Nat} {kcp : Kcpcb} (small : limit < 2 ^ 31)
    (window : SendWindow limit kcp) (wnd : UInt32) {cwnd : UInt32} (narrow : cwnd.toNat ≤ limit)
    (queue : List Segment) : SendWindow limit (admitLoop wnd cwnd queue kcp) := by
  induction queue generalizing kcp with
  | nil => exact window.congr rfl rfl rfl rfl
  | cons newseg queue inductionHypothesis =>
      by_cases room : itimediff kcp.sndNxt (kcp.sndUna + cwnd) < 0
      · rw [Kcp.admitLoop, if_pos room]
        exact inductionHypothesis (window.admits small narrow room rfl)
      · rw [Kcp.admitLoop, if_neg room]
        exact window.congr rfl rfl rfl rfl

theorem sendWindow_le (kcp : Kcpcb) : (sendWindow kcp).toNat ≤ kcp.sndWnd.toNat := by
  have least : ∀ a b : UInt32, (imin a b).toNat ≤ a.toNat ∧ (imin a b).toNat ≤ b.toNat := by
    intro a b
    unfold imin
    split
    · rename_i le
      exact ⟨Nat.le_refl _, UInt32.le_iff_toNat_le.mp le⟩
    · rename_i greater
      have := UInt32.le_iff_toNat_le.not.mp greater
      omega
  unfold sendWindow
  split
  · exact (least _ _).2.trans (least _ _).1
  · exact (least _ _).1

theorem SendWindow.flush {limit : Nat} {kcp : Kcpcb} (small : limit < 2 ^ 31)
    (window : SendWindow limit kcp) : SendWindow limit (ikcpFlush kcp).1 := by
  by_cases idle : kcp.updated = 0
  · rw [ikcpFlush, if_pos idle]
    exact window
  · have probed : SendWindow limit { probeStage kcp with probe := 0 } := by
      obtain ⟨tsProbe, probeWait, probe, result⟩ := probeTimer_eq { kcp with acklist := [] }
      rw [probeStage, result]
      exact window.congr rfl rfl rfl rfl
    have narrow := (sendWindow_le { probeStage kcp with probe := 0 }).trans probed.sndWnd
    have admitted : SendWindow limit (admitStage kcp) :=
      probed.admitLoop small (ackStage kcp).2.wnd narrow (probeStage kcp).sndQueue
    obtain ⟨ssthresh, cwnd, incr, result⟩ := updateSsthresh_eq
      { admitStage kcp with
        sndBuf := (dataStage kcp).passed
        xmit := (dataStage kcp).xmit
        state := (dataStage kcp).state }
      (dataStage kcp).change (dataStage kcp).lost (sendWindow { probeStage kcp with probe := 0 })
    rw [ikcpFlush_stages idle, result]
    exact admitted.congr rfl rfl rfl (numbers_congr (dataStage_passed kcp))

theorem SendWindow.update {limit : Nat} {kcp : Kcpcb} (small : limit < 2 ^ 31)
    (window : SendWindow limit kcp) (current : UInt32) :
    SendWindow limit (ikcpUpdate kcp current).1 := by
  obtain ⟨updated, tsFlush, -, waiting | flushing⟩ := ikcpUpdate_cases kcp current
  · rw [waiting]
    exact window.congr rfl rfl rfl rfl
  · rw [flushing]
    exact SendWindow.flush small (window.congr rfl rfl rfl rfl)

/-! ### Arbitrary bytes -/

theorem SendWindow.input {limit : Nat} {kcp : Kcpcb} (window : SendWindow limit kcp)
    (data : Bytes) : SendWindow limit (ikcpInput kcp data).2 :=
  ikcpInput_keeps (fun _ h data kept => SendWindow.inputSegment kept h data)
    (fun _ prevUna kept => SendWindow.inputEnd kept prevUna) kcp data window

end KcpTest.Kcp
