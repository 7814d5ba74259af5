import KcpTest.Kcp.InputEffect

/-!
Contract: round trip times and the retransmission timeout.

Owns: the RTT estimate as a function of the samples taken, the samples one
datagram gives, and what each operation of KCP does to the clock, the estimate
and `rx_rto`.

The arithmetic is that of the source, on 32 bits.
-/

set_option autoImplicit false

namespace KcpTest.Kcp

/-! ### The estimate -/

/-- The smoothed round trip time and its smoothed deviation. -/
structure Estimate where
  srtt : Int32
  rttval : Int32

/-- The estimate after one more sample. -/
def Estimate.sample (estimate : Estimate) (rtt : Int32) : Estimate :=
  if estimate.srtt = 0 then { srtt := rtt, rttval := rtt / 2 }
  else
    let delta := (rtt - estimate.srtt).toInt
    let delta := if delta < 0 then -delta else delta
    let srtt := (7 * estimate.srtt + rtt) / 8
    { srtt := if srtt < 1 then 1 else srtt
      rttval := Int32.ofInt (((3 * estimate.rttval).toInt + delta).tdiv 4) }

/-- The timeout of an estimate, before it is clamped. -/
def Estimate.timeout (interval : UInt32) (estimate : Estimate) : UInt32 :=
  estimate.srtt.toUInt32 + imax interval (4 * estimate.rttval).toUInt32

/-- The part of the control block that times acknowledgements. -/
structure Timing where
  current : UInt32
  estimate : Estimate
  rxRto : Int32

def Kcpcb.timing (kcp : Kcpcb) : Timing where
  current := kcp.current
  estimate := { srtt := kcp.rxSrtt, rttval := kcp.rxRttval }
  rxRto := kcp.rxRto

/-- One sample, with `rx_minrto` and `interval`. -/
def Timing.sample (minrto : Int32) (interval : UInt32) (timing : Timing) (rtt : Int32) : Timing :=
  let estimate := timing.estimate.sample rtt
  { timing with
    estimate
    rxRto := (ibound minrto.toUInt32 (estimate.timeout interval) ikcpRtoMax).toInt32 }

/-! ### The samples of a datagram -/

/-- The headers of the segments `ikcp_input` goes through. -/
def readHeaders (conv : UInt32) : Nat → Bytes → List Header
  | 0, _ => []
  | fuel + 1, data =>
      if data.length < ikcpOverhead.toNat then []
      else
        let (h, body) := decodeHeader data
        if h.conv ≠ conv then []
        else if body.length < h.len.toNat ∨ h.len.toInt32 < 0 then []
        else if ¬ h.KnownCmd then []
        else h :: readHeaders conv fuel (body.drop h.len.toNat)

/-- An acknowledgement gives a sample unless its time is ahead of the clock. -/
def rttOf (current : UInt32) (h : Header) : Option Int32 :=
  if h.cmd.toUInt32 = ikcpCmdAck ∧ itimediff current h.ts ≥ 0 then
    some (Int32.ofInt (itimediff current h.ts))
  else none

/-- The samples `ikcp_input` takes from a datagram. -/
def rttSamples (conv current : UInt32) (data : Bytes) : List Int32 :=
  if asInt data.length < ikcpOverhead.toNat then []
  else (readHeaders conv data.length data).filterMap (rttOf current)

/-! ### One segment -/

theorem ikcpUpdateAck_timing (kcp : Kcpcb) (rtt : Int32) :
    (ikcpUpdateAck kcp rtt).timing = kcp.timing.sample kcp.rxMinrto kcp.interval rtt := by
  unfold ikcpUpdateAck Timing.sample Estimate.sample
  by_cases first : kcp.rxSrtt = 0
  · have same : kcp.timing.estimate.srtt = 0 := first
    simp only [if_pos first, if_pos same]
    rfl
  · have same : ¬ kcp.timing.estimate.srtt = 0 := first
    simp only [if_neg first, if_neg same]
    rfl

@[simp] theorem ikcpShrinkBuf_timing (kcp : Kcpcb) : (ikcpShrinkBuf kcp).timing = kcp.timing := by
  obtain ⟨sndUna, shrunk⟩ := ikcpShrinkBuf_eq kcp
  rw [shrunk]
  rfl

@[simp] theorem ikcpParseAck_timing (kcp : Kcpcb) (sn : UInt32) :
    (ikcpParseAck kcp sn).timing = kcp.timing := by
  rcases ikcpParseAck_eq kcp sn with same | removed
  · rw [same]
  · rw [removed]
    rfl

@[simp] theorem ikcpParseFastack_timing (kcp : Kcpcb) (sn ts : UInt32) :
    (ikcpParseFastack kcp sn ts).timing = kcp.timing := by
  rcases ikcpParseFastack_eq kcp sn ts with same | skipped
  · rw [same]
  · rw [skipped]
    rfl

@[simp] theorem inputPush_timing (kcp : Kcpcb) (h : Header) (data : Bytes) :
    (inputPush kcp h data).timing = kcp.timing := by
  obtain ⟨rcvBuf, rcvQueue, rcvNxt, acklist, pushed⟩ := inputPush_eq kcp h data
  rw [pushed]
  rfl

@[simp] theorem growCwnd_timing (kcp : Kcpcb) (prevUna : UInt32) :
    (growCwnd kcp prevUna).timing = kcp.timing := by
  obtain ⟨cwnd, incr, grown⟩ := growCwnd_eq kcp prevUna
  rw [grown]
  rfl

/-- The timing after a segment with this header. -/
def Timing.read (minrto : Int32) (interval : UInt32) (timing : Timing) (h : Header) : Timing :=
  (rttOf timing.current h).elim timing (timing.sample minrto interval)

theorem inputAck_timing (st : InputState) (h : Header) :
    (inputAck st h).kcp.timing =
      if itimediff st.kcp.current h.ts ≥ 0 then
        st.kcp.timing.sample st.kcp.rxMinrto st.kcp.interval
          (Int32.ofInt (itimediff st.kcp.current h.ts))
      else st.kcp.timing := by
  rw [inputAck_kcp, ikcpShrinkBuf_timing, ikcpParseAck_timing]
  split
  · exact ikcpUpdateAck_timing _ _
  · rfl

/-- A segment changes the timing only by the sample its header gives. -/
theorem inputSegment_timing (st : InputState) (h : Header) (data : Bytes) :
    (inputSegment st h data).kcp.timing =
      st.kcp.timing.read st.kcp.rxMinrto st.kcp.interval h := by
  obtain ⟨sndUna, shrunk⟩ := ikcpShrinkBuf_eq
    (ikcpParseUna { st.kcp with rmtWnd := h.wnd.toUInt32 } h.una)
  have clock : st.kcp.timing.current = st.kcp.current := rfl
  simp only [inputSegment, shrunk, Timing.read, rttOf, clock]
  by_cases isAck : h.cmd.toUInt32 = ikcpCmdAck
  · rw [if_pos isAck, inputAck_timing]
    simp only [isAck, true_and]
    by_cases past : itimediff st.kcp.current h.ts ≥ 0
    · have here : itimediff (ikcpParseUna { st.kcp with rmtWnd := h.wnd.toUInt32 } h.una).current
          h.ts ≥ 0 := past
      rw [if_pos here, if_pos past]
      rfl
    · have here : ¬ itimediff
          (ikcpParseUna { st.kcp with rmtWnd := h.wnd.toUInt32 } h.una).current h.ts ≥ 0 := past
      rw [if_neg here, if_neg past]
      rfl
  · simp only [isAck, false_and, if_false, Option.elim_none]
    split
    · exact inputPush_timing _ _ _
    · split <;> rfl

/-! ### Whole calls -/

theorem inputLoop_timing (fuel : Nat) (st : InputState) (data : Bytes) :
    (inputLoop fuel st data).2.kcp.timing =
      (readHeaders st.kcp.conv fuel data).foldl
        (Timing.read st.kcp.rxMinrto st.kcp.interval) st.kcp.timing := by
  induction fuel generalizing st data with
  | zero => rfl
  | succ fuel inductionHypothesis =>
      simp only [inputLoop, readHeaders]
      split
      · rfl
      · split
        · rfl
        · split
          · rfl
          · split
            · rfl
            · have config := (inputSegment_effect st (decodeHeader data).1
                ((decodeHeader data).2.take (decodeHeader data).1.len.toNat)).config
              have conv := congrArg Config.conv config
              have minrto := congrArg Config.rxMinrto config
              have interval := congrArg Config.interval config
              simp only [Kcpcb.config] at conv minrto interval
              rw [inductionHypothesis, conv, minrto, interval, inputSegment_timing,
                List.foldl_cons]

/-- Samples leave the clock alone, so a datagram gives all its samples at one
time. -/
theorem foldl_read (minrto : Int32) (interval : UInt32) (headers : List Header) (timing : Timing) :
    headers.foldl (Timing.read minrto interval) timing =
      (headers.filterMap (rttOf timing.current)).foldl (Timing.sample minrto interval) timing := by
  induction headers generalizing timing with
  | nil => rfl
  | cons h headers inductionHypothesis =>
      rw [List.foldl_cons, inductionHypothesis, Timing.read]
      cases taken : rttOf timing.current h with
      | none => simp [taken]
      | some rtt =>
          have clock : (timing.sample minrto interval rtt).current = timing.current := rfl
          simp [taken, clock]

theorem ikcpInput_timing (kcp : Kcpcb) (data : Bytes) :
    (ikcpInput kcp data).2.timing =
      (rttSamples kcp.conv kcp.current data).foldl
        (Timing.sample kcp.rxMinrto kcp.interval) kcp.timing := by
  unfold ikcpInput rttSamples
  by_cases short : asInt data.length < ikcpOverhead.toNat
  · rw [if_pos short, if_pos short]
    rfl
  · rw [if_neg short, if_neg short]
    have looped := inputLoop_timing data.length
      { kcp, flag := false, maxack := 0, latestTs := 0 } data
    rw [foldl_read] at looped
    dsimp only
    split
    · exact looped
    · rw [growCwnd_timing]
      split
      · rw [ikcpParseFastack_timing]
        exact looped
      · exact looped

theorem ikcpFlush_timing (kcp : Kcpcb) : (ikcpFlush kcp).1.timing = kcp.timing := by
  obtain ⟨_, _, _, _, _, _, _, _, _, _, _, _, result⟩ := ikcpFlush_eq kcp
  rw [result]
  rfl

theorem ikcpUpdate_timing (kcp : Kcpcb) (current : UInt32) :
    (ikcpUpdate kcp current).1.timing = { kcp.timing with current := current } := by
  obtain ⟨updated, tsFlush, -, waiting | flushing⟩ := ikcpUpdate_cases kcp current
  · rw [waiting]
    rfl
  · rw [flushing, ikcpFlush_timing]
    rfl

theorem ikcpRecv_timing (kcp : Kcpcb) (len : Int32) :
    (ikcpRecv kcp len).kcp.timing = kcp.timing := by
  rcases ikcpRecv_cases kcp len with ⟨-, same, -⟩ | ⟨-, -, -, -, probe, result⟩
  · rw [same]
  · rw [result]
    split <;> rfl

end KcpTest.Kcp
