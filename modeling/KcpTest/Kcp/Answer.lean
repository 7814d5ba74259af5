import KcpTest.Kcp.Flushed
import KcpTest.Kcp.Parse
import KcpTest.Kcp.ReceiveWindow

/-!
Contract: what a control block must send, and what a datagram must change.

Owns: the clocks at which an update flushes, that a flush transmits the oldest
segment when it is due, asks for a closed window, and answers what arrived; and
what the answer does to the sender: it opens the window and releases everything
below the announced number.
-/

set_option autoImplicit false

namespace KcpTest.Kcp

open KcpTest.Library

/-! ### When an update flushes -/

/-- An update of a new block, or with the timer expired, is a flush. -/
theorem ikcpUpdate_flushes {kcp : Kcpcb} {current : UInt32}
    (due : kcp.updated = 0 ∨ FlushDue kcp current) :
    ∃ updated tsFlush, updated ≠ 0 ∧ ikcpUpdate kcp current =
      ikcpFlush { kcp with current := current, updated := updated, tsFlush := tsFlush } := by
  by_cases new : kcp.updated = 0
  · have busy : (1 : UInt32) ≠ 0 := by decide
    have now : FlushDue { kcp with updated := 1, tsFlush := current } current :=
      Or.inl (by rw [itimediff_self])
    obtain ⟨tsFlush, -, -, flushed⟩ := ikcpUpdate_of_due busy now
    rw [ikcpUpdate_of_new new]
    exact ⟨1, _, busy, flushed⟩
  · obtain ⟨tsFlush, -, -, flushed⟩ := ikcpUpdate_of_due new (due.resolve_left new)
    exact ⟨kcp.updated, _, new, flushed⟩

/-- There is a clock at which the flush timer and any other timer have expired. -/
theorem exists_expired (kcp : Kcpcb) (timer : UInt32) :
    ∃ current, FlushDue kcp current ∧ 0 ≤ itimediff current timer := by
  by_cases later : FlushDue kcp timer
  · exact ⟨timer, later, (itimediff_self timer).symm.le⟩
  · -- the other timer is at most ten seconds before the flush timer
    obtain ⟨early, near⟩ := not_or.mp later
    refine ⟨kcp.tsFlush, Or.inl (itimediff_self kcp.tsFlush).symm.le, ?_⟩
    rw [itimediff_swap (by omega) (by omega)]
    omega

/-! ### Data that is due -/

/-- Segments are only added, and none of those was transmitted yet. -/
theorem admitLoop_sndBuf (wnd cwnd : UInt32) (queue : List Segment) (kcp : Kcpcb) :
    ∃ fresh, (admitLoop wnd cwnd queue kcp).sndBuf = kcp.sndBuf ++ fresh ∧
      ∀ seg ∈ fresh, seg.xmit = 0 := by
  induction queue generalizing kcp with
  | nil => exact ⟨[], (List.append_nil _).symm, by simp⟩
  | cons newseg queue inductionHypothesis =>
      unfold admitLoop
      split
      · obtain ⟨fresh, result, unsent⟩ := inductionHypothesis
          { kcp with
            sndBuf := kcp.sndBuf ++ [admitSegment kcp wnd newseg]
            sndNxt := kcp.sndNxt + 1 }
        refine ⟨admitSegment kcp wnd newseg :: fresh, by rw [result, List.append_assoc]; rfl, ?_⟩
        rintro seg member
        rcases List.mem_cons.mp member with rfl | later
        · rfl
        · exact unsent seg later
      · exact ⟨[], (List.append_nil _).symm, by simp⟩

/-- A segment that was never transmitted, or whose timer has expired. -/
def Segment.Due (seg : Segment) (current : UInt32) : Prop :=
  seg.xmit = 0 ∨ 0 ≤ itimediff current seg.resendts

theorem transmitted_of_due {kcp : Kcpcb} {seg : Segment} (due : seg.Due kcp.current)
    (wnd : UInt32) : ∃ sent, transmitted kcp wnd seg = some sent ∧ sent.core = seg.core := by
  have some' : ∃ reason, sendReason kcp seg = some reason := by
    unfold sendReason
    by_cases first : seg.xmit = 0
    · exact ⟨.first, if_pos first⟩
    · exact ⟨.timeout, by rw [if_neg first, if_pos (due.resolve_left first)]⟩
  obtain ⟨reason, decided⟩ := some'
  exact ⟨stamp kcp wnd seg reason, by rw [transmitted, decided]; rfl, stamp_core _ _ _ _⟩

/-- The oldest segment in front of the data loop is transmitted when it is due. -/
theorem flushed_head {kcp : Kcpcb} {head : Segment} {rest : List Segment}
    (buf : (admitStage kcp).sndBuf = head :: rest) (due : head.Due kcp.current) :
    ∃ seg ∈ flushed kcp, seg.core = head.core := by
  have clock : (admitStage kcp).current = kcp.current := by
    obtain ⟨_, _, _, _, _, _, admitted, _⟩ := admitStage_effect kcp
    rw [admitted]
  rw [← clock] at due
  obtain ⟨sent, chosen, core⟩ := transmitted_of_due due (ackStage kcp).2.wnd
  refine ⟨sent, ?_, core⟩
  apply List.mem_append_right
  rw [dataSegments, buf]
  exact List.mem_filterMap.mpr ⟨head, List.mem_cons_self, chosen⟩

theorem probeStage_eq (kcp : Kcpcb) :
    ∃ tsProbe probeWait probe, probeStage kcp =
      { kcp with
        acklist := [], tsProbe := tsProbe, probeWait := probeWait, probe := probe } := by
  obtain ⟨tsProbe, probeWait, probe, probed⟩ := probeTimer_eq { kcp with acklist := [] }
  exact ⟨tsProbe, probeWait, probe, probed⟩

/-- A flush transmits the oldest segment it holds, when this is due. -/
theorem flushed_oldest {kcp : Kcpcb} {head : Segment} {rest : List Segment}
    (buf : kcp.sndBuf = head :: rest) (due : head.Due kcp.current) :
    ∃ seg ∈ flushed kcp, seg.core = head.core := by
  obtain ⟨tsProbe, probeWait, probe, probed⟩ := probeStage_eq kcp
  obtain ⟨fresh, appended, -⟩ := admitLoop_sndBuf (ackStage kcp).2.wnd
    (sendWindow { probeStage kcp with probe := 0 }) (probeStage kcp).sndQueue
    { probeStage kcp with probe := 0 }
  have oldest : (admitStage kcp).sndBuf = head :: (rest ++ fresh) := by
    rw [admitStage, appended, probed]
    show kcp.sndBuf ++ fresh = _
    rw [buf]
    rfl
  exact flushed_head oldest due

/-- With nothing in flight and an open window it transmits the first segment that
waits. -/
theorem flushed_waiting {kcp : Kcpcb} {newseg : Segment} {queue : List Segment}
    (empty : kcp.sndBuf = []) (waiting : kcp.sndQueue = newseg :: queue)
    (uncontrolled : kcp.nocwnd ≠ 0) (idle : kcp.sndUna = kcp.sndNxt)
    (window : 0 < (imin kcp.sndWnd kcp.rmtWnd).toNat ∧
      (imin kcp.sndWnd kcp.rmtWnd).toNat < 2 ^ 31) :
    ∃ seg ∈ flushed kcp, seg.cmd = ikcpCmdPush ∧ seg.sn = kcp.sndNxt := by
  obtain ⟨tsProbe, probeWait, probe, probed⟩ := probeStage_eq kcp
  have cwnd : sendWindow { probeStage kcp with probe := 0 } = imin kcp.sndWnd kcp.rmtWnd := by
    rw [probed, sendWindow, if_neg uncontrolled]
  have room : itimediff kcp.sndNxt (kcp.sndUna + imin kcp.sndWnd kcp.rmtWnd) < 0 := by
    apply itimediff_window_neg
    · rw [idle, UInt32.sub_self]
      exact window.1
    · omega
  have admitted : ∃ head rest, (admitStage kcp).sndBuf = head :: rest ∧ head.xmit = 0 ∧
      head.cmd = ikcpCmdPush ∧ head.sn = kcp.sndNxt := by
    rw [admitStage, cwnd, probed]
    simp only [waiting, admitLoop, if_pos room]
    obtain ⟨fresh, appended, -⟩ := admitLoop_sndBuf (ackStage kcp).2.wnd
      (imin kcp.sndWnd kcp.rmtWnd) queue _
    rw [appended, empty]
    exact ⟨_, _, rfl, rfl, rfl, rfl⟩
  obtain ⟨head, rest, buf, unsent, cmd, sn⟩ := admitted
  obtain ⟨seg, member, core⟩ := flushed_head buf (Or.inl unsent)
  have sameCmd : seg.cmd = head.cmd := (congrArg Segment.cmd core :)
  have sameSn : seg.sn = head.sn := (congrArg Segment.sn core :)
  exact ⟨seg, member, sameCmd.trans cmd, sameSn.trans sn⟩

/-! ### Probes and acknowledgements -/

/-- Bits that are set stay set. -/
theorem or_and_ne_zero {flags bit : UInt32} (more : UInt32) (set' : flags &&& bit ≠ 0) :
    (flags ||| more) &&& bit ≠ 0 := by
  intro none'
  have split : (flags ||| more) &&& bit = (flags &&& bit) ||| (more &&& bit) :=
    UInt32.toBitVec_inj.mp BitVec.and_or_distrib_right
  rw [split] at none'
  exact set' (UInt32.or_eq_zero_iff.mp none').1

/-- The next flush has something to say: an acknowledgement, or the window the
peer has asked for. -/
def Answers (kcp : Kcpcb) : Prop := kcp.acklist ≠ [] ∨ kcp.probe &&& ikcpAskTell ≠ 0

theorem probeStage_probe (kcp : Kcpcb) :
    (probeStage kcp).probe = kcp.probe ∨ (probeStage kcp).probe = kcp.probe ||| ikcpAskSend := by
  unfold probeStage probeTimer
  split
  · split
    · exact Or.inl rfl
    · split
      · exact Or.inr rfl
      · exact Or.inl rfl
  · exact Or.inl rfl

theorem Answers.flushed {kcp : Kcpcb} (answers : Answers kcp) : ∃ seg, seg ∈ flushed kcp := by
  rcases answers with acks | tells
  · obtain ⟨ack, rest, pending⟩ := List.exists_cons_of_ne_nil acks
    refine ⟨{ flushTemplate kcp with sn := ack.1, ts := ack.2 }, ?_⟩
    refine List.mem_append_left _ (List.mem_append_left _ (List.mem_append_left _ ?_))
    rw [ackSegments, pending]
    exact List.mem_cons_self
  · have kept : (probeStage kcp).probe &&& ikcpAskTell ≠ 0 := by
      rcases probeStage_probe kcp with same | asks
      · rwa [same]
      · rw [asks]
        exact or_and_ne_zero ikcpAskSend tells
    refine ⟨{ (ackStage kcp).2 with cmd := ikcpCmdWins }, ?_⟩
    refine List.mem_append_left _ (List.mem_append_right _ ?_)
    rw [probeSegment, if_pos kept]
    exact List.mem_singleton_self _

/-- With the peer's window closed and the probe timer expired, a flush asks. -/
theorem flushed_asks {kcp : Kcpcb} (closed : kcp.rmtWnd = 0) (started : kcp.probeWait ≠ 0)
    (expired : 0 ≤ itimediff kcp.current kcp.tsProbe) :
    ∃ seg ∈ flushed kcp, seg.cmd = ikcpCmdWask := by
  have asks : (probeStage kcp).probe = kcp.probe ||| ikcpAskSend := by
    unfold probeStage probeTimer
    rw [if_pos closed, if_neg started, if_pos expired]
  have set' : (probeStage kcp).probe &&& ikcpAskSend ≠ 0 := by
    have bit : ikcpAskSend &&& ikcpAskSend ≠ 0 := by decide
    rw [asks, UInt32.or_comm]
    exact or_and_ne_zero kcp.probe bit
  refine ⟨{ (ackStage kcp).2 with cmd := ikcpCmdWask }, ?_, rfl⟩
  refine List.mem_append_left _ (List.mem_append_left _ (List.mem_append_right _ ?_))
  rw [probeSegment, if_pos set']
  exact List.mem_singleton_self _

/-- With the peer's window closed, a flush starts the probe timer. -/
theorem ikcpFlush_probeWait {kcp : Kcpcb} (busy : kcp.updated ≠ 0) (closed : kcp.rmtWnd = 0)
    (stopped : kcp.probeWait = 0) : (ikcpFlush kcp).1.probeWait ≠ 0 := by
  have started : (probeStage kcp).probeWait = ikcpProbeInit := by
    unfold probeStage probeTimer
    rw [if_pos closed, if_pos stopped]
  obtain ⟨ssthresh, cwnd, incr, result⟩ := updateSsthresh_eq
    { admitStage kcp with
      sndBuf := (dataStage kcp).passed
      xmit := (dataStage kcp).xmit
      state := (dataStage kcp).state }
    (dataStage kcp).change (dataStage kcp).lost (sendWindow { probeStage kcp with probe := 0 })
  obtain ⟨_, _, _, _, admitted, _⟩ := admitLoop_effect (ackStage kcp).2.wnd
    (sendWindow { probeStage kcp with probe := 0 }) (probeStage kcp).sndQueue
    { probeStage kcp with probe := 0 }
  rw [ikcpFlush_stages busy, result]
  show (admitStage kcp).probeWait ≠ 0
  rw [admitStage, admitted]
  show (probeStage kcp).probeWait ≠ 0
  rw [started]
  decide

/-! ### What arrives at the answering side -/

/-- A segment only adds to the pending acknowledgements. -/
theorem inputPush_acklist (kcp : Kcpcb) (h : Header) (data : Bytes) :
    (inputPush kcp h data).acklist =
      if itimediff h.sn (kcp.rcvNxt + kcp.rcvWnd) < 0 then kcp.acklist ++ [(h.sn, h.ts)]
      else kcp.acklist := by
  simp only [inputPush]
  split
  · split
    · obtain ⟨_, _, _, parsed⟩ := ikcpParseData_eq (ikcpAckPush kcp h.sn h.ts) (h.segment data)
      rw [parsed]
      rfl
    · rfl
  · rfl

theorem inputSegment_acklist (st : InputState) (h : Header) (data : Bytes) :
    st.kcp.acklist <+: (inputSegment st h data).kcp.acklist := by
  rw [(inputSegment_effect st h data).acklist, receiveSegment]
  split
  · rw [inputPush_acklist]
    split
    · exact List.prefix_append _ _
    · exact List.prefix_refl _
  · exact List.prefix_refl _

/-- The flags after a segment. -/
theorem inputSegment_probe (st : InputState) (h : Header) (data : Bytes) :
    (inputSegment st h data).kcp.probe =
      if h.cmd.toUInt32 = ikcpCmdWask then st.kcp.probe ||| ikcpAskTell else st.kcp.probe := by
  obtain ⟨sndUna, shrunk⟩ := ikcpShrinkBuf_eq
    (ikcpParseUna { st.kcp with rmtWnd := h.wnd.toUInt32 } h.una)
  have isAck : h.cmd.toUInt32 = ikcpCmdAck → h.cmd.toUInt32 ≠ ikcpCmdWask := fun same => by
    rw [same]
    decide
  have isPush : h.cmd.toUInt32 = ikcpCmdPush → h.cmd.toUInt32 ≠ ikcpCmdWask := fun same => by
    rw [same]
    decide
  simp only [inputSegment, shrunk]
  split
  · rename_i ack
    rw [if_neg (isAck ack)]
    obtain ⟨_, _, _, _, _, result, -⟩ := inputAck_eq
      { st with kcp :=
        { ikcpParseUna { st.kcp with rmtWnd := h.wnd.toUInt32 } h.una with sndUna := sndUna } } h
    rw [result]
    rfl
  · split
    · rename_i push
      rw [if_neg (isPush push)]
      obtain ⟨_, _, _, _, pushed⟩ := inputPush_eq
        { ikcpParseUna { st.kcp with rmtWnd := h.wnd.toUInt32 } h.una with sndUna := sndUna } h data
      simp only [pushed]
      rfl
    · split <;> rfl

/-- What a segment leaves for the next flush, the rest of the datagram leaves. -/
theorem inputSegments_keeps_answers (st : InputState) (segs : List Segment) :
    st.kcp.acklist <+: (inputSegments st segs).kcp.acklist ∧
      (st.kcp.probe &&& ikcpAskTell ≠ 0 →
        (inputSegments st segs).kcp.probe &&& ikcpAskTell ≠ 0) := by
  induction segs generalizing st with
  | nil => exact ⟨List.prefix_refl _, id⟩
  | cons seg segs inductionHypothesis =>
      obtain ⟨acks, tells⟩ := inductionHypothesis (inputSegment st seg.header seg.data)
      refine ⟨(inputSegment_acklist st seg.header seg.data).trans acks, fun before => tells ?_⟩
      rw [inputSegment_probe]
      split
      · exact or_and_ne_zero ikcpAskTell before
      · exact before

/-- A window probe is answered. -/
theorem inputSegments_asked {st : InputState} {segs : List Segment} {seg : Segment}
    (member : seg ∈ segs) (readable : seg.Readable) (asks : seg.cmd = ikcpCmdWask) :
    (inputSegments st segs).kcp.probe &&& ikcpAskTell ≠ 0 := by
  obtain ⟨front, back, rfl⟩ := List.append_of_mem member
  rw [inputSegments, List.foldl_append, List.foldl_cons]
  refine (inputSegments_keeps_answers _ back).2 ?_
  rw [inputSegment_probe, if_pos (readable.cmd.trans asks), UInt32.or_comm]
  exact or_and_ne_zero _ (by decide)

/-- A receive takes nothing from the next flush. -/
theorem ikcpRecv_keeps_answers (kcp : Kcpcb) (len : Int32) :
    (ikcpRecv kcp len).kcp.acklist = kcp.acklist ∧
      (Answers kcp → Answers (ikcpRecv kcp len).kcp) := by
  have kept : (ikcpRecv kcp len).kcp.acklist = kcp.acklist ∧
      ((ikcpRecv kcp len).kcp.probe = kcp.probe ∨
        (ikcpRecv kcp len).kcp.probe = kcp.probe ||| ikcpAskTell) := by
    simp only [ikcpRecv]
    generalize (if len.toInt < 0 then -len.toInt else len.toInt) = room
    split
    · exact ⟨rfl, Or.inl rfl⟩
    · split
      · exact ⟨rfl, Or.inl rfl⟩
      · split
        · exact ⟨rfl, Or.inl rfl⟩
        · by_cases ispeek : len.toInt < 0
          · simp only [if_pos ispeek]
            split
            · exact ⟨rfl, Or.inr rfl⟩
            · exact ⟨rfl, Or.inl rfl⟩
          · simp only [if_neg ispeek]
            split
            · exact ⟨rfl, Or.inr rfl⟩
            · exact ⟨rfl, Or.inl rfl⟩
  obtain ⟨acks, probe⟩ := kept
  refine ⟨acks, ?_⟩
  rintro (pending | tells)
  · exact Or.inl (acks ▸ pending)
  · right
    rcases probe with same | more
    · rwa [same]
    · rw [more]
      exact or_and_ne_zero ikcpAskTell tells

/-! ### What the answer does -/

/-- Only the announcements and acknowledgements of a segment concern `snd_buf`. -/
theorem inputSegment_sndBuf (st : InputState) (h : Header) (data : Bytes) :
    (inputSegment st h data).kcp.sndBuf.Sublist
        (st.kcp.sndBuf.dropWhile fun seg => itimediff h.una seg.sn > 0) ∧
      (inputSegment st h data).kcp.rmtWnd = h.wnd.toUInt32 := by
  obtain ⟨sndUna, shrunk⟩ := ikcpShrinkBuf_eq
    (ikcpParseUna { st.kcp with rmtWnd := h.wnd.toUInt32 } h.una)
  simp only [inputSegment, shrunk]
  split
  · obtain ⟨_, _, _, _, buf, result, removed⟩ := inputAck_eq
      { st with kcp :=
        { ikcpParseUna { st.kcp with rmtWnd := h.wnd.toUInt32 } h.una with sndUna := sndUna } } h
    rw [result]
    refine ⟨?_, rfl⟩
    rcases removed with same | removed
    · rw [same]
      exact List.Sublist.refl _
    · rw [removed]
      exact removeAcked_sublist _ _
  · split
    · obtain ⟨_, _, _, _, pushed⟩ := inputPush_eq
        { ikcpParseUna { st.kcp with rmtWnd := h.wnd.toUInt32 } h.una with sndUna := sndUna } h data
      simp only [pushed]
      exact ⟨List.Sublist.refl _, rfl⟩
    · split <;> exact ⟨List.Sublist.refl _, rfl⟩

/-- In an ascending buffer the announced number releases everything below it. -/
theorem le_of_mem_dropWhile {una : UInt32} (unaSmall : una.toNat < 2 ^ 31) {buf : List Segment}
    (small : ∀ seg ∈ buf, seg.sn.toNat < 2 ^ 31)
    (ascending : buf.Pairwise fun first second => first.sn.toNat < second.sn.toNat) :
    ∀ seg ∈ buf.dropWhile (fun seg => itimediff una seg.sn > 0), una.toNat ≤ seg.sn.toNat := by
  induction buf with
  | nil => simp
  | cons head buf inductionHypothesis =>
      have headSmall := small head List.mem_cons_self
      obtain ⟨above, sorted⟩ := List.pairwise_cons.mp ascending
      by_cases below : itimediff una head.sn > 0
      · rw [List.dropWhile_cons_of_pos (by simpa using below)]
        exact inductionHypothesis (fun seg member => small seg (List.mem_cons_of_mem _ member))
          sorted
      · rw [List.dropWhile_cons_of_neg (by simpa using below)]
        rw [itimediff_of_small unaSmall headSmall] at below
        intro seg member
        rcases List.mem_cons.mp member with rfl | later
        · omega
        · have := above seg later
          omega

theorem inputSegments_sndBuf (st : InputState) (segs : List Segment) :
    (inputSegments st segs).kcp.sndBuf.Sublist st.kcp.sndBuf := by
  induction segs generalizing st with
  | nil => exact List.Sublist.refl _
  | cons seg segs inductionHypothesis =>
      have first := (inputSegment_sndBuf st seg.header seg.data).1.trans (List.dropWhile_sublist _)
      exact (inductionHypothesis (inputSegment st seg.header seg.data)).trans first

/-- What the end of `ikcp_input` does not touch. -/
theorem finishInput_eq (kcp : Kcpcb) (st : InputState) :
    (finishInput kcp st).rmtWnd = st.kcp.rmtWnd ∧ (finishInput kcp st).acklist = st.kcp.acklist ∧
      (finishInput kcp st).probe = st.kcp.probe ∧
      (finishInput kcp st).sndBuf.map Segment.core = st.kcp.sndBuf.map Segment.core := by
  obtain ⟨cwnd, incr, grown⟩ := growCwnd_eq
    (if st.flag then ikcpParseFastack st.kcp st.maxack st.latestTs else st.kcp) kcp.sndUna
  rw [finishInput, grown]
  split
  · rcases ikcpParseFastack_eq st.kcp st.maxack st.latestTs with same | skipped
    · rw [same]
      exact ⟨rfl, rfl, rfl, rfl⟩
    · rw [skipped]
      exact ⟨rfl, rfl, rfl, markSkipped_core _ _ _⟩
  · exact ⟨rfl, rfl, rfl, rfl⟩

/-- A datagram of segments of the conversation. -/
structure Bundle (conv : UInt32) (segs : List Segment) : Prop where
  nonempty : segs ≠ []
  short : (segs.flatMap Segment.encode).length < 2 ^ 31
  readable : ∀ seg ∈ segs, seg.Readable
  conv : ∀ seg ∈ segs, seg.conv = conv

theorem Bundle.input {kcp : Kcpcb} {segs : List Segment} (bundle : Bundle kcp.conv segs) :
    (ikcpInput kcp (segs.flatMap Segment.encode)).2 =
      finishInput kcp (inputSegments (startInput kcp) segs) := by
  have header : 24 ≤ (segs.flatMap Segment.encode).length := by
    obtain ⟨seg, rest, rfl⟩ := List.exists_cons_of_ne_nil bundle.nonempty
    simp only [List.flatMap_cons, List.length_append, Segment.encode_length]
    omega
  have frames : inputFrames (startInput kcp) (segs.map Segment.frame) =
      inputSegments (startInput kcp) segs := List.foldl_map
  rw [ikcpInput_parse bundle.short header (parse_segments bundle.readable bundle.conv),
    if_neg (by decide), frames]

/-- A probe in a datagram leaves the window to be told. -/
theorem Bundle.asked {kcp : Kcpcb} {segs : List Segment} (bundle : Bundle kcp.conv segs)
    {seg : Segment} (member : seg ∈ segs) (asks : seg.cmd = ikcpCmdWask) :
    Answers (ikcpInput kcp (segs.flatMap Segment.encode)).2 := by
  obtain ⟨-, -, probe, -⟩ := finishInput_eq kcp (inputSegments (startInput kcp) segs)
  right
  rw [bundle.input, probe]
  exact inputSegments_asked member (bundle.readable seg member) asks

/-- A datagram that announces a window and a number opens the one and releases
what is below the other. -/
theorem Bundle.announced {kcp : Kcpcb} {segs : List Segment} (bundle : Bundle kcp.conv segs)
    {una wnd : UInt32} (announces : ∀ seg ∈ segs, seg.una = una ∧ seg.wnd = wnd)
    (unaSmall : una.toNat < 2 ^ 31) (wndSmall : wnd.toNat < 2 ^ 16)
    (small : ∀ seg ∈ kcp.sndBuf, seg.sn.toNat < 2 ^ 31)
    (ascending : kcp.sndBuf.Pairwise fun first second => first.sn.toNat < second.sn.toNat) :
    (ikcpInput kcp (segs.flatMap Segment.encode)).2.rmtWnd = wnd ∧
      ∀ seg ∈ (ikcpInput kcp (segs.flatMap Segment.encode)).2.sndBuf,
        una.toNat ≤ seg.sn.toNat := by
  obtain ⟨rmtWnd, -, -, cores⟩ := finishInput_eq kcp (inputSegments (startInput kcp) segs)
  rw [bundle.input]
  -- the last segment says what all of them say
  obtain ⟨front, last, rfl⟩ := List.eq_nil_or_concat' segs |>.resolve_left bundle.nonempty
  obtain ⟨sameUna, sameWnd⟩ := announces last (List.mem_append_right _ (List.mem_singleton_self _))
  obtain ⟨left, window⟩ :=
    inputSegment_sndBuf (inputSegments (startInput kcp) front) last.header last.data
  have final : inputSegments (startInput kcp) (front ++ [last]) =
      inputSegment (inputSegments (startInput kcp) front) last.header last.data := by
    rw [inputSegments, List.foldl_append]
    rfl
  rw [final] at rmtWnd cores ⊢
  have before := inputSegments_sndBuf (startInput kcp) front
  constructor
  · rw [rmtWnd, window]
    show last.wnd.toUInt16.toUInt32 = wnd
    rw [sameWnd, ← UInt32.toNat_inj, UInt16.toNat_toUInt32, UInt32.toNat_toUInt16]
    omega
  · intro seg member
    obtain ⟨kept, inBuf, same⟩ := List.mem_map.mp (cores ▸ List.mem_map_of_mem member)
    have above := le_of_mem_dropWhile unaSmall
      (fun other inside => small other (before.subset inside)) (ascending.sublist before) kept
      (by
        have inside := left.subset inBuf
        rwa [show last.header.una = una from sameUna] at inside)
    have sameSn : kept.sn = seg.sn := (congrArg Segment.sn same :)
    rwa [← sameSn]

end KcpTest.Kcp
