import KcpTest.Kcp.FlushEffect
import Mathlib.Data.List.TakeWhile

/-!
Contract: what one `ikcp_input` can do.

Owns: the effect of a single segment on the sending and the receiving half, the
effect of a whole datagram of arbitrary bytes on the sending half, and the
reduction of the byte loop to a fold over segments for a datagram that a peer
encoded.
-/

set_option autoImplicit false

namespace KcpTest.Kcp

open KcpTest.Library

/-! ### Helpers touch only their own fields -/

theorem ikcpUpdateAck_eq (kcp : Kcpcb) (rtt : Int32) :
    ∃ rxRttval rxSrtt rxRto,
      ikcpUpdateAck kcp rtt =
        { kcp with rxRttval := rxRttval, rxSrtt := rxSrtt, rxRto := rxRto } := by
  unfold ikcpUpdateAck
  split <;> exact ⟨_, _, _, rfl⟩

theorem ikcpShrinkBuf_eq (kcp : Kcpcb) :
    ∃ sndUna, ikcpShrinkBuf kcp = { kcp with sndUna := sndUna } := by
  unfold ikcpShrinkBuf
  split <;> exact ⟨_, rfl⟩

theorem ikcpParseAck_eq (kcp : Kcpcb) (sn : UInt32) :
    ikcpParseAck kcp sn = kcp ∨
      ikcpParseAck kcp sn = { kcp with sndBuf := removeAcked sn kcp.sndBuf } := by
  unfold ikcpParseAck
  split
  · exact Or.inl rfl
  · exact Or.inr rfl

/-- The control block after an acknowledgement, without the locals. -/
theorem inputAck_kcp (st : InputState) (h : Header) :
    (inputAck st h).kcp =
      ikcpShrinkBuf (ikcpParseAck
        (if itimediff st.kcp.current h.ts ≥ 0 then
          ikcpUpdateAck st.kcp (Int32.ofInt (itimediff st.kcp.current h.ts))
        else st.kcp) h.sn) := by
  simp only [inputAck]
  split
  · rfl
  · split <;> rfl

/-- An acknowledgement touches the RTT estimate, the floor and `snd_buf`, which
at most loses the acknowledged segment. -/
theorem inputAck_eq (st : InputState) (h : Header) :
    ∃ rxRttval rxSrtt rxRto sndUna sndBuf,
      (inputAck st h).kcp =
        { st.kcp with
          rxRttval := rxRttval
          rxSrtt := rxSrtt
          rxRto := rxRto
          sndUna := sndUna
          sndBuf := sndBuf } ∧
      (sndBuf = st.kcp.sndBuf ∨ sndBuf = removeAcked h.sn st.kcp.sndBuf) := by
  have smoothed : ∃ rxRttval rxSrtt rxRto,
      (if itimediff st.kcp.current h.ts ≥ 0 then
          ikcpUpdateAck st.kcp (Int32.ofInt (itimediff st.kcp.current h.ts))
        else st.kcp) =
        { st.kcp with rxRttval := rxRttval, rxSrtt := rxSrtt, rxRto := rxRto } := by
    split
    · exact ikcpUpdateAck_eq _ _
    · exact ⟨st.kcp.rxRttval, st.kcp.rxSrtt, st.kcp.rxRto, rfl⟩
  obtain ⟨rxRttval, rxSrtt, rxRto, smoothed⟩ := smoothed
  obtain ⟨sndUna, shrunk⟩ := ikcpShrinkBuf_eq (ikcpParseAck
    { st.kcp with rxRttval := rxRttval, rxSrtt := rxSrtt, rxRto := rxRto } h.sn)
  rw [inputAck_kcp, smoothed, shrunk]
  rcases ikcpParseAck_eq
      { st.kcp with rxRttval := rxRttval, rxSrtt := rxSrtt, rxRto := rxRto } h.sn with
    same | removed
  · rw [same]
    exact ⟨rxRttval, rxSrtt, rxRto, sndUna, st.kcp.sndBuf, rfl, Or.inl rfl⟩
  · rw [removed]
    exact ⟨rxRttval, rxSrtt, rxRto, sndUna, _, rfl, Or.inr rfl⟩

theorem ikcpParseFastack_eq (kcp : Kcpcb) (sn ts : UInt32) :
    ikcpParseFastack kcp sn ts = kcp ∨
      ikcpParseFastack kcp sn ts = { kcp with sndBuf := markSkipped sn ts kcp.sndBuf } := by
  unfold ikcpParseFastack
  split
  · exact Or.inl rfl
  · exact Or.inr rfl

theorem growCwnd_eq (kcp : Kcpcb) (prevUna : UInt32) :
    ∃ cwnd incr, growCwnd kcp prevUna = { kcp with cwnd := cwnd, incr := incr } := by
  have raised : ∃ cwnd incr, raiseCwnd kcp = { kcp with cwnd := cwnd, incr := incr } := by
    unfold raiseCwnd
    split <;> exact ⟨_, _, rfl⟩
  obtain ⟨cwnd, incr, raised⟩ := raised
  simp only [growCwnd, raised]
  split
  · split
    · exact ⟨_, _, rfl⟩
    · exact ⟨cwnd, incr, rfl⟩
  · exact ⟨kcp.cwnd, kcp.incr, rfl⟩

theorem ikcpParseData_eq (kcp : Kcpcb) (newseg : Segment) :
    ∃ rcvBuf rcvQueue rcvNxt,
      ikcpParseData kcp newseg =
        { kcp with rcvBuf := rcvBuf, rcvQueue := rcvQueue, rcvNxt := rcvNxt } := by
  unfold ikcpParseData
  split
  · exact ⟨kcp.rcvBuf, kcp.rcvQueue, kcp.rcvNxt, rfl⟩
  · split <;> exact ⟨_, _, _, rfl⟩

theorem inputPush_eq (kcp : Kcpcb) (h : Header) (data : Bytes) :
    ∃ rcvBuf rcvQueue rcvNxt acklist,
      inputPush kcp h data =
        { kcp with
          rcvBuf := rcvBuf
          rcvQueue := rcvQueue
          rcvNxt := rcvNxt
          acklist := acklist } := by
  simp only [inputPush]
  split
  · split
    · obtain ⟨rcvBuf, rcvQueue, rcvNxt, parsed⟩ :=
        ikcpParseData_eq (ikcpAckPush kcp h.sn h.ts) (h.segment data)
      exact ⟨rcvBuf, rcvQueue, rcvNxt, _, parsed⟩
    · exact ⟨kcp.rcvBuf, kcp.rcvQueue, kcp.rcvNxt, _, rfl⟩
  · exact ⟨kcp.rcvBuf, kcp.rcvQueue, kcp.rcvNxt, kcp.acklist, rfl⟩

/-! ### Releasing segments -/

theorem mem_of_mem_removeAcked {sn : UInt32} {buf : List Segment} {seg : Segment}
    (member : seg ∈ removeAcked sn buf) : seg ∈ buf := by
  induction buf with
  | nil => simp [removeAcked] at member
  | cons head rest inductionHypothesis =>
      simp only [removeAcked] at member
      split at member
      · exact List.mem_cons_of_mem _ member
      · split at member
        · exact member
        · rcases List.mem_cons.mp member with rfl | later
          · exact List.mem_cons_self
          · exact List.mem_cons_of_mem _ (inductionHypothesis later)

/-- `ikcp_parse_ack` removes nothing but the segment it was asked to. -/
theorem mem_removeAcked_or_eq {sn : UInt32} {buf : List Segment} {seg : Segment}
    (member : seg ∈ buf) : seg ∈ removeAcked sn buf ∨ seg.sn = sn := by
  induction buf with
  | nil => simp at member
  | cons head rest inductionHypothesis =>
      simp only [removeAcked]
      split
      · rename_i same
        rcases List.mem_cons.mp member with rfl | later
        · exact Or.inr same.symm
        · exact Or.inl later
      · split
        · exact Or.inl member
        · rcases List.mem_cons.mp member with rfl | later
          · exact Or.inl List.mem_cons_self
          · exact (inductionHypothesis later).imp_left (List.mem_cons_of_mem _)

/-- A prefix dropped by `dropWhile` satisfies the test. -/
theorem mem_dropWhile_or {test : Segment → Bool} {buf : List Segment} {seg : Segment}
    (member : seg ∈ buf) : seg ∈ buf.dropWhile test ∨ test seg = true := by
  rw [← List.takeWhile_append_dropWhile (p := test) (l := buf)] at member
  rcases List.mem_append.mp member with dropped | kept
  · exact Or.inr (List.mem_takeWhile_imp dropped)
  · exact Or.inl kept

@[simp] theorem markSkipped_core (sn ts : UInt32) (buf : List Segment) :
    (markSkipped sn ts buf).map Segment.core = buf.map Segment.core := by
  induction buf with
  | nil => rfl
  | cons seg rest inductionHypothesis =>
      simp only [markSkipped]
      split
      · rfl
      · split
        · simp [inductionHypothesis, Segment.core]
        · simp [inductionHypothesis]

/-! ### One segment -/

/-- The receiving half after a segment: only data changes it. -/
def receiveSegment (kcp : Kcpcb) (h : Header) (data : Bytes) : Kcpcb :=
  if h.cmd.toUInt32 = ikcpCmdPush then inputPush kcp h data else kcp

/-- The effect of one accepted segment. -/
structure SegmentEffect (kcp : Kcpcb) (h : Header) (data : Bytes) (kcp' : Kcpcb) : Prop where
  config : kcp'.config = kcp.config
  sndNxt : kcp'.sndNxt = kcp.sndNxt
  sndQueue : kcp'.sndQueue = kcp.sndQueue
  kept : ∀ seg ∈ kcp'.sndBuf, seg ∈ kcp.sndBuf
  released : ∀ seg ∈ kcp.sndBuf, seg ∈ kcp'.sndBuf ∨ itimediff h.una seg.sn > 0 ∨
    (h.cmd.toUInt32 = ikcpCmdAck ∧ seg.sn = h.sn)
  inbound : kcp'.inbound = (receiveSegment kcp h data).inbound
  acklist : kcp'.acklist = (receiveSegment kcp h data).acklist

theorem ikcpParseData_frame (kcp : Kcpcb) (newseg : Segment) (rmtWnd sndUna : UInt32)
    (sndBuf : List Segment) :
    ikcpParseData { kcp with rmtWnd := rmtWnd, sndUna := sndUna, sndBuf := sndBuf } newseg =
      { ikcpParseData kcp newseg with rmtWnd := rmtWnd, sndUna := sndUna, sndBuf := sndBuf } := by
  unfold ikcpParseData
  by_cases outside : itimediff newseg.sn (kcp.rcvNxt + kcp.rcvWnd) ≥ 0 ∨
      itimediff newseg.sn kcp.rcvNxt < 0
  · simp only [if_pos outside]
  · simp only [if_neg outside]
    cases insertFromTail newseg kcp.rcvBuf.reverse <;> rfl

/-- Placing data does not look at the pending acknowledgements. -/
theorem ikcpParseData_acklist (kcp : Kcpcb) (newseg : Segment) (sn ts : UInt32) :
    ikcpParseData (ikcpAckPush kcp sn ts) newseg =
      { ikcpParseData kcp newseg with
        acklist := (ikcpParseData kcp newseg).acklist ++ [(sn, ts)] } := by
  unfold ikcpParseData ikcpAckPush
  by_cases outside : itimediff newseg.sn (kcp.rcvNxt + kcp.rcvWnd) ≥ 0 ∨
      itimediff newseg.sn kcp.rcvNxt < 0
  · simp only [if_pos outside]
  · simp only [if_neg outside]
    cases insertFromTail newseg kcp.rcvBuf.reverse <;> rfl

/-- The receiving half does not look at the sending half. -/
theorem inputPush_frame (kcp : Kcpcb) (h : Header) (data : Bytes) (rmtWnd sndUna : UInt32)
    (sndBuf : List Segment) :
    inputPush { kcp with rmtWnd := rmtWnd, sndUna := sndUna, sndBuf := sndBuf } h data =
      { inputPush kcp h data with rmtWnd := rmtWnd, sndUna := sndUna, sndBuf := sndBuf } := by
  unfold inputPush
  by_cases inWindow : itimediff h.sn (kcp.rcvNxt + kcp.rcvWnd) < 0
  · by_cases fresh : itimediff h.sn kcp.rcvNxt ≥ 0
    · simp only [ikcpAckPush, inWindow, fresh, ↓reduceIte]
      exact ikcpParseData_frame { kcp with acklist := kcp.acklist ++ [(h.sn, h.ts)] }
        (h.segment data) rmtWnd sndUna sndBuf
    · simp only [ikcpAckPush, inWindow, fresh, ↓reduceIte]
  · simp only [if_neg inWindow]

theorem inputSegment_effect (st : InputState) (h : Header) (data : Bytes) :
    SegmentEffect st.kcp h data (inputSegment st h data).kcp := by
  obtain ⟨sndUna, shrunk⟩ := ikcpShrinkBuf_eq
    (ikcpParseUna { st.kcp with rmtWnd := h.wnd.toUInt32 } h.una)
  have covered : ∀ seg ∈ st.kcp.sndBuf,
      seg ∈ st.kcp.sndBuf.dropWhile (fun seg => itimediff h.una seg.sn > 0) ∨
        itimediff h.una seg.sn > 0 := fun seg member =>
    (mem_dropWhile_or member).imp_right fun test => by simpa using test
  have fromBuf : ∀ seg ∈ st.kcp.sndBuf.dropWhile (fun seg => itimediff h.una seg.sn > 0),
      seg ∈ st.kcp.sndBuf := fun seg member => (List.dropWhile_sublist _).subset member
  simp only [inputSegment, shrunk]
  simp only [ikcpParseUna]
  generalize st.kcp.sndBuf.dropWhile _ = buf at covered fromBuf ⊢
  by_cases isAck : h.cmd.toUInt32 = ikcpCmdAck
  · have notPush : h.cmd.toUInt32 ≠ ikcpCmdPush := by
      rw [isAck]
      decide
    obtain ⟨rxRttval, rxSrtt, rxRto, sndUna', buf', result, removed⟩ := inputAck_eq
      { st with kcp := { st.kcp with
          rmtWnd := h.wnd.toUInt32, sndBuf := buf, sndUna := sndUna } } h
    rw [if_pos isAck, result]
    refine
      { config := rfl, sndNxt := rfl, sndQueue := rfl, kept := ?_, released := ?_
        inbound := by rw [receiveSegment, if_neg notPush]; rfl
        acklist := by rw [receiveSegment, if_neg notPush] }
    · intro seg member
      rcases removed with rfl | rfl
      · exact fromBuf seg member
      · exact fromBuf seg (mem_of_mem_removeAcked member)
    · intro seg member
      rcases covered seg member with still | below
      · rcases removed with rfl | rfl
        · exact Or.inl still
        · exact (mem_removeAcked_or_eq still).imp_right fun same => Or.inr ⟨isAck, same⟩
      · exact Or.inr (Or.inl below)
  · rw [if_neg isAck]
    have released : ∀ seg ∈ st.kcp.sndBuf, seg ∈ buf ∨ itimediff h.una seg.sn > 0 ∨
        (h.cmd.toUInt32 = ikcpCmdAck ∧ seg.sn = h.sn) :=
      fun seg member => (covered seg member).imp_right Or.inl
    by_cases isPush : h.cmd.toUInt32 = ikcpCmdPush
    · rw [if_pos isPush]
      simp only
      rw [inputPush_frame]
      obtain ⟨rcvBuf, rcvQueue, rcvNxt, acks, pushed⟩ := inputPush_eq st.kcp h data
      have received : receiveSegment st.kcp h data = inputPush st.kcp h data := if_pos isPush
      rw [pushed] at received ⊢
      exact
        { config := rfl, sndNxt := rfl, sndQueue := rfl, kept := fromBuf, released := released
          inbound := by rw [received]; rfl
          acklist := by rw [received] }
    · rw [if_neg isPush]
      split <;>
        exact
          { config := rfl, sndNxt := rfl, sndQueue := rfl, kept := fromBuf, released := released
            inbound := by rw [receiveSegment, if_neg isPush]; rfl
            acklist := by rw [receiveSegment, if_neg isPush] }

/-! ### Arbitrary bytes -/

/-- What any datagram leaves alone in the sending half: segments may be
released, and nothing else happens up to retransmission fields. -/
structure KeepsOutbound (kcp kcp' : Kcpcb) : Prop where
  config : kcp'.config = kcp.config
  sndNxt : kcp'.sndNxt = kcp.sndNxt
  sndQueue : kcp'.sndQueue = kcp.sndQueue
  kept : ∀ core ∈ kcp'.sndBuf.map Segment.core, core ∈ kcp.sndBuf.map Segment.core

theorem KeepsOutbound.refl (kcp : Kcpcb) : KeepsOutbound kcp kcp :=
  ⟨rfl, rfl, rfl, fun _ member => member⟩

theorem KeepsOutbound.trans {first second third : Kcpcb} (before : KeepsOutbound first second)
    (after : KeepsOutbound second third) : KeepsOutbound first third where
  config := after.config.trans before.config
  sndNxt := after.sndNxt.trans before.sndNxt
  sndQueue := after.sndQueue.trans before.sndQueue
  kept := fun core member => before.kept core (after.kept core member)

theorem SegmentEffect.keepsOutbound {kcp kcp' : Kcpcb} {h : Header} {data : Bytes}
    (effect : SegmentEffect kcp h data kcp') : KeepsOutbound kcp kcp' where
  config := effect.config
  sndNxt := effect.sndNxt
  sndQueue := effect.sndQueue
  kept := fun core member => by
    obtain ⟨seg, inBuf, rfl⟩ := List.mem_map.mp member
    exact List.mem_map_of_mem (effect.kept seg inBuf)

theorem inputLoop_keepsOutbound (fuel : Nat) (st : InputState) (data : Bytes) :
    KeepsOutbound st.kcp (inputLoop fuel st data).2.kcp := by
  induction fuel generalizing st data with
  | zero => exact KeepsOutbound.refl _
  | succ fuel inductionHypothesis =>
      simp only [inputLoop]
      split
      · exact KeepsOutbound.refl _
      · split
        · exact KeepsOutbound.refl _
        · split
          · exact KeepsOutbound.refl _
          · split
            · exact KeepsOutbound.refl _
            · exact (inputSegment_effect st _ _).keepsOutbound.trans (inductionHypothesis _ _)

/-- What the end of `ikcp_input` leaves alone: retransmission and congestion
fields aside, everything. -/
structure SameProtocol (kcp kcp' : Kcpcb) : Prop where
  config : kcp'.config = kcp.config
  sndNxt : kcp'.sndNxt = kcp.sndNxt
  sndQueue : kcp'.sndQueue = kcp.sndQueue
  sndBuf : kcp'.sndBuf.map Segment.core = kcp.sndBuf.map Segment.core
  inbound : kcp'.inbound = kcp.inbound
  acklist : kcp'.acklist = kcp.acklist

theorem SameProtocol.keepsOutbound {kcp kcp' : Kcpcb} (same : SameProtocol kcp kcp') :
    KeepsOutbound kcp kcp' where
  config := same.config
  sndNxt := same.sndNxt
  sndQueue := same.sndQueue
  kept := fun _ member => same.sndBuf ▸ member

/-- The fast-acknowledgement count and the congestion window, the last two
things a datagram changes. -/
theorem inputEnd_same (st : InputState) (prevUna : UInt32) :
    SameProtocol st.kcp
      (growCwnd (if st.flag then ikcpParseFastack st.kcp st.maxack st.latestTs else st.kcp)
        prevUna) := by
  have marked : ∃ buf, buf.map Segment.core = st.kcp.sndBuf.map Segment.core ∧
      (if st.flag then ikcpParseFastack st.kcp st.maxack st.latestTs else st.kcp) =
        { st.kcp with sndBuf := buf } := by
    split
    · rcases ikcpParseFastack_eq st.kcp st.maxack st.latestTs with same | skipped
      · exact ⟨st.kcp.sndBuf, rfl, same⟩
      · exact ⟨_, markSkipped_core _ _ _, skipped⟩
    · exact ⟨st.kcp.sndBuf, rfl, rfl⟩
  obtain ⟨buf, cores, marked⟩ := marked
  obtain ⟨cwnd, incr, grown⟩ := growCwnd_eq { st.kcp with sndBuf := buf } prevUna
  rw [marked, grown]
  exact ⟨rfl, rfl, rfl, cores, rfl, rfl⟩

/-- Whatever the bytes are, `ikcp_input` invents nothing to send. -/
theorem ikcpInput_keepsOutbound (kcp : Kcpcb) (data : Bytes) :
    KeepsOutbound kcp (ikcpInput kcp data).2 := by
  simp only [ikcpInput]
  split
  · exact KeepsOutbound.refl _
  · have looped := inputLoop_keepsOutbound data.length
      { kcp, flag := false, maxack := 0, latestTs := 0 } data
    split
    · exact looped
    · exact looped.trans (inputEnd_same _ _).keepsOutbound

/-- What every segment and the end of `ikcp_input` keep, `ikcp_input` keeps,
whatever the bytes are. -/
theorem ikcpInput_keeps {P : Kcpcb → Prop}
    (segment : ∀ st h data, P st.kcp → P (inputSegment st h data).kcp)
    (finish : ∀ (st : InputState) prevUna, P st.kcp →
      P (growCwnd (if st.flag then ikcpParseFastack st.kcp st.maxack st.latestTs else st.kcp)
        prevUna))
    (kcp : Kcpcb) (data : Bytes) (holds : P kcp) : P (ikcpInput kcp data).2 := by
  have loop : ∀ fuel st data, P st.kcp → P (inputLoop fuel st data).2.kcp := by
    intro fuel
    induction fuel with
    | zero => exact fun st data holds => holds
    | succ fuel inductionHypothesis =>
        intro st data holds
        simp only [inputLoop]
        split
        · exact holds
        · split
          · exact holds
          · split
            · exact holds
            · split
              · exact holds
              · exact inductionHypothesis _ _ (segment st _ _ holds)
  simp only [ikcpInput]
  split
  · exact holds
  · have looped := loop data.length { kcp, flag := false, maxack := 0, latestTs := 0 } data holds
    split
    · exact looped
    · exact finish _ _ looped

/-! ### Datagrams of whole segments -/

/-- A segment that `ikcp_input` reads back the way it was written. -/
structure Segment.Readable (seg : Segment) : Prop where
  known : seg.cmd = ikcpCmdPush ∨ seg.cmd = ikcpCmdAck ∨ seg.cmd = ikcpCmdWask ∨
    seg.cmd = ikcpCmdWins
  frg : seg.frg.toNat < 256
  len : seg.len < 2 ^ 31

theorem Segment.Readable.cmd {seg : Segment} (readable : seg.Readable) :
    seg.header.cmd.toUInt32 = seg.cmd := by
  change seg.cmd.toUInt8.toUInt32 = seg.cmd
  rcases readable.known with known | known | known | known <;> rw [known] <;> decide

theorem Segment.Readable.frg_eq {seg : Segment} (readable : seg.Readable) :
    seg.header.frg.toUInt32 = seg.frg := by
  have := readable.frg
  apply UInt32.toNat_inj.mp
  simp only [Segment.header, UInt8.toNat_toUInt32, UInt32.toNat_toUInt8]
  omega

theorem Segment.Readable.len_eq {seg : Segment} (readable : seg.Readable) :
    seg.header.len.toNat = seg.len := by
  have := readable.len
  simp only [Segment.header, UInt32.toNat_ofNat']
  omega

theorem Segment.Readable.len_nonneg {seg : Segment} (readable : seg.Readable) :
    ¬ seg.header.len.toInt32 < 0 := by
  have := readable.len
  have len := readable.len_eq
  have nonneg : 0 ≤ seg.header.len.toInt32.toInt := by
    change 0 ≤ seg.header.len.toBitVec.toInt
    rw [BitVec.toInt_eq_toNat_of_lt]
    · exact Int.natCast_nonneg _
    · change 2 * seg.header.len.toNat < 2 ^ 32
      omega
  rw [Int32.lt_iff_toInt_lt]
  simpa using nonneg

/-- The segments of a datagram, read one after the other. -/
def inputSegments (st : InputState) (segs : List Segment) : InputState :=
  segs.foldl (fun st seg => inputSegment st seg.header seg.data) st

/-- One round of the loop consumes one readable segment. -/
theorem inputLoop_cons (fuel : Nat) (st : InputState) (seg : Segment) (rest : Bytes)
    (readable : seg.Readable) (conv : seg.conv = st.kcp.conv) :
    inputLoop (fuel + 1) st (seg.encode ++ rest) =
      inputLoop fuel (inputSegment st seg.header seg.data) rest := by
  have long : ¬ (seg.encode ++ rest).length < ikcpOverhead.toNat := by
    have : ikcpOverhead.toNat = 24 := rfl
    simp only [List.length_append, Segment.encode_length]
    omega
  have decoded : decodeHeader (seg.encode ++ rest) = (seg.header, seg.data ++ rest) := by
    rw [Segment.encode, List.append_assoc, decodeHeader_encode]
  have known : seg.header.KnownCmd := by
    rw [Header.KnownCmd, readable.cmd]
    exact readable.known
  have sameConv : ¬ seg.header.conv ≠ st.kcp.conv := not_not.mpr conv
  have enough : ¬ ((seg.data ++ rest).length < seg.len ∨ seg.header.len.toInt32 < 0) := by
    rintro (short | negative)
    · simp only [List.length_append, Segment.len] at short
      omega
    · exact readable.len_nonneg negative
  simp only [inputLoop, if_neg long, decoded, if_neg sameConv, readable.len_eq, if_neg enough,
    known, not_true, if_false]
  simp [Segment.len]

theorem inputLoop_segments (segs : List Segment) (fuel : Nat) (st : InputState)
    (enough : segs.length ≤ fuel) (readable : ∀ seg ∈ segs, seg.Readable)
    (conv : ∀ seg ∈ segs, seg.conv = st.kcp.conv) :
    inputLoop fuel st (segs.flatMap Segment.encode) = (0, inputSegments st segs) := by
  induction segs generalizing fuel st with
  | nil => cases fuel <;> simp [inputLoop, inputSegments, ikcpOverhead]
  | cons seg segs inductionHypothesis =>
      obtain ⟨fuel, rfl⟩ : ∃ less, fuel = less + 1 := ⟨fuel - 1, by
        simp only [List.length_cons] at enough
        omega⟩
      rw [List.flatMap_cons, inputLoop_cons fuel st seg _ (readable seg List.mem_cons_self)
        (conv seg List.mem_cons_self)]
      have sameConv : (inputSegment st seg.header seg.data).kcp.conv = st.kcp.conv :=
        (congrArg Config.conv (inputSegment_effect st seg.header seg.data).config :)
      rw [inductionHypothesis]
      · rfl
      · simpa using enough
      · exact fun other member => readable other (List.mem_cons_of_mem _ member)
      · exact fun other member => (conv other (List.mem_cons_of_mem _ member)).trans sameConv.symm

theorem asInt_of_small {size : Nat} (small : size < 2 ^ 31) : asInt size = size := by
  have value : (UInt32.ofNat size).toNat = size := by
    rw [UInt32.toNat_ofNat']
    omega
  change (UInt32.ofNat size).toBitVec.toInt = size
  rw [BitVec.toInt_eq_toNat_of_lt]
  · exact congrArg Nat.cast value
  · change 2 * (UInt32.ofNat size).toNat < 2 ^ 32
    omega

theorem length_le_flatMap_encode (segs : List Segment) :
    segs.length ≤ (segs.flatMap Segment.encode).length := by
  induction segs with
  | nil => simp
  | cons seg segs inductionHypothesis =>
      simp only [List.flatMap_cons, List.length_cons, List.length_append, Segment.encode_length]
      omega

/-- A datagram of readable segments of the right conversation is accepted, and
its segments are handled one after the other. -/
theorem ikcpInput_segments (kcp : Kcpcb) (segs : List Segment) (some' : segs ≠ [])
    (short : (segs.flatMap Segment.encode).length < 2 ^ 31)
    (readable : ∀ seg ∈ segs, seg.Readable) (conv : ∀ seg ∈ segs, seg.conv = kcp.conv) :
    (ikcpInput kcp (segs.flatMap Segment.encode)).1 = 0 ∧
      SameProtocol
        (inputSegments { kcp, flag := false, maxack := 0, latestTs := 0 } segs).kcp
        (ikcpInput kcp (segs.flatMap Segment.encode)).2 := by
  have count := length_le_flatMap_encode segs
  have long : ¬ asInt (segs.flatMap Segment.encode).length < ikcpOverhead.toNat := by
    have header : 24 ≤ (segs.flatMap Segment.encode).length := by
      obtain ⟨seg, rest, rfl⟩ := List.exists_cons_of_ne_nil some'
      simp only [List.flatMap_cons, List.length_append, Segment.encode_length]
      omega
    have : ikcpOverhead.toNat = 24 := rfl
    rw [asInt_of_small short]
    omega
  have looped := inputLoop_segments segs _
    { kcp, flag := false, maxack := 0, latestTs := 0 } count readable conv
  simp only [ikcpInput, if_neg long, looped]
  exact ⟨rfl, inputEnd_same _ _⟩

/-- A datagram whose first segment belongs to another conversation is refused,
and nothing changes. -/
theorem ikcpInput_foreign (kcp : Kcpcb) (seg : Segment) (rest : Bytes)
    (short : (seg.encode ++ rest).length < 2 ^ 31) (foreign : seg.conv ≠ kcp.conv) :
    ikcpInput kcp (seg.encode ++ rest) = (-1, kcp) := by
  have header : 24 ≤ (seg.encode ++ rest).length := by
    simp only [List.length_append, Segment.encode_length]
    omega
  have overhead : ikcpOverhead.toNat = 24 := rfl
  have long : ¬ asInt (seg.encode ++ rest).length < ikcpOverhead.toNat := by
    rw [asInt_of_small short]
    omega
  have whole : ¬ (seg.encode ++ rest).length < ikcpOverhead.toNat := by omega
  have decoded : decodeHeader (seg.encode ++ rest) = (seg.header, seg.data ++ rest) := by
    rw [Segment.encode, List.append_assoc, decodeHeader_encode]
  generalize seg.encode ++ rest = data at *
  have differs : seg.header.conv ≠ kcp.conv := foreign
  have looped : inputLoop data.length { kcp, flag := false, maxack := 0, latestTs := 0 } data =
      (-1, { kcp, flag := false, maxack := 0, latestTs := 0 }) := by
    obtain ⟨fuel, length⟩ : ∃ fuel, data.length = fuel + 1 := ⟨data.length - 1, by omega⟩
    rw [length, inputLoop, if_neg whole, decoded]
    simp only [if_pos differs]
  simp only [ikcpInput, if_neg long, looped]
  rfl

end KcpTest.Kcp
