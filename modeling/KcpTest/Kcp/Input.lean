import KcpTest.Kcp.Transfer
import KcpTest.Kcp.Wire

/-!
Contract: `ikcp_input`, the datagram side of KCP.

Owns: RTT smoothing, releasing acknowledged segments, the pending
acknowledgement list, placing data in `rcv_buf`, and the loop over the segments
of one datagram with its three error returns.
-/

set_option autoImplicit false

namespace KcpTest.Kcp

/-! ### Acknowledgements -/

def ikcpUpdateAck (kcp : Kcpcb) (rtt : Int32) : Kcpcb :=
  let kcp :=
    if kcp.rxSrtt = 0 then { kcp with rxSrtt := rtt, rxRttval := rtt / 2 }
    else
      let delta := (rtt - kcp.rxSrtt).toInt
      let delta := if delta < 0 then -delta else delta
      let srtt := (7 * kcp.rxSrtt + rtt) / 8
      { kcp with
        rxRttval := Int32.ofInt (((3 * kcp.rxRttval).toInt + delta).tdiv 4)
        rxSrtt := if srtt < 1 then 1 else srtt }
  let rto :=
    (kcp.rxSrtt.toUInt32 + imax kcp.interval (4 * kcp.rxRttval).toUInt32).toInt32
  { kcp with
    rxRto := (ibound kcp.rxMinrto.toUInt32 rto.toUInt32 ikcpRtoMax).toInt32 }

def ikcpShrinkBuf (kcp : Kcpcb) : Kcpcb :=
  match kcp.sndBuf with
  | seg :: _ => { kcp with sndUna := seg.sn }
  | [] => { kcp with sndUna := kcp.sndNxt }

/-- The loop of `ikcp_parse_ack`. -/
def removeAcked (sn : UInt32) : List Segment → List Segment
  | [] => []
  | seg :: rest =>
      if sn = seg.sn then rest
      else if itimediff sn seg.sn < 0 then seg :: rest
      else seg :: removeAcked sn rest

def ikcpParseAck (kcp : Kcpcb) (sn : UInt32) : Kcpcb :=
  if itimediff sn kcp.sndUna < 0 ∨ itimediff sn kcp.sndNxt ≥ 0 then kcp
  else { kcp with sndBuf := removeAcked sn kcp.sndBuf }

def ikcpParseUna (kcp : Kcpcb) (una : UInt32) : Kcpcb :=
  { kcp with sndBuf := kcp.sndBuf.dropWhile fun seg => itimediff una seg.sn > 0 }

/-- The loop of `ikcp_parse_fastack`, with `IKCP_FASTACK_CONSERVE` defined. -/
def markSkipped (sn ts : UInt32) : List Segment → List Segment
  | [] => []
  | seg :: rest =>
      if itimediff sn seg.sn < 0 then seg :: rest
      else if sn ≠ seg.sn ∧ itimediff ts seg.ts ≥ 0 then
        { seg with fastack := seg.fastack + 1 } :: markSkipped sn ts rest
      else seg :: markSkipped sn ts rest

def ikcpParseFastack (kcp : Kcpcb) (sn ts : UInt32) : Kcpcb :=
  if itimediff sn kcp.sndUna < 0 ∨ itimediff sn kcp.sndNxt ≥ 0 then kcp
  else { kcp with sndBuf := markSkipped sn ts kcp.sndBuf }

def ikcpAckPush (kcp : Kcpcb) (sn ts : UInt32) : Kcpcb :=
  { kcp with acklist := kcp.acklist ++ [(sn, ts)] }

/-! ### Data -/

/-- The insertion loop of `ikcp_parse_data` over `rcv_buf` read from its tail:
`none` when a segment with the same number is found. -/
def insertFromTail (newseg : Segment) : List Segment → Option (List Segment)
  | [] => some [newseg]
  | seg :: front =>
      if seg.sn = newseg.sn then none
      else if itimediff newseg.sn seg.sn > 0 then some (newseg :: seg :: front)
      else (insertFromTail newseg front).map (seg :: ·)

def ikcpParseData (kcp : Kcpcb) (newseg : Segment) : Kcpcb :=
  if itimediff newseg.sn (kcp.rcvNxt + kcp.rcvWnd) ≥ 0 ∨ itimediff newseg.sn kcp.rcvNxt < 0 then
    kcp
  else
    let kcp :=
      match insertFromTail newseg kcp.rcvBuf.reverse with
      | some buf => { kcp with rcvBuf := buf.reverse }
      | none => kcp
    kcp.moveAvailable

/-! ### One datagram -/

/-- The locals of `ikcp_input` that live across segments. -/
structure InputState where
  kcp : Kcpcb
  flag : Bool
  maxack : UInt32
  latestTs : UInt32

/-- The branch for `IKCP_CMD_ACK`. -/
def inputAck (st : InputState) (h : Header) : InputState :=
  let kcp := st.kcp
  let kcp :=
    if itimediff kcp.current h.ts ≥ 0 then
      ikcpUpdateAck kcp (Int32.ofInt (itimediff kcp.current h.ts))
    else kcp
  let kcp := ikcpShrinkBuf (ikcpParseAck kcp h.sn)
  if st.flag = false then { kcp, flag := true, maxack := h.sn, latestTs := h.ts }
  else if itimediff h.sn st.maxack > 0 ∧ itimediff h.ts st.latestTs > 0 then
    { st with kcp, maxack := h.sn, latestTs := h.ts }
  else { st with kcp }

/-- The segment `ikcp_input` builds from a header and its data. -/
def Header.segment (h : Header) (data : Bytes) : Segment where
  conv := h.conv
  cmd := h.cmd.toUInt32
  frg := h.frg.toUInt32
  wnd := h.wnd.toUInt32
  ts := h.ts
  sn := h.sn
  una := h.una
  data := data

/-- The branch for `IKCP_CMD_PUSH`. -/
def inputPush (kcp : Kcpcb) (h : Header) (data : Bytes) : Kcpcb :=
  if itimediff h.sn (kcp.rcvNxt + kcp.rcvWnd) < 0 then
    let kcp := ikcpAckPush kcp h.sn h.ts
    if itimediff h.sn kcp.rcvNxt ≥ 0 then ikcpParseData kcp (h.segment data) else kcp
  else kcp

/-- What the loop of `ikcp_input` does with one segment it has not rejected. -/
def inputSegment (st : InputState) (h : Header) (data : Bytes) : InputState :=
  let kcp := { st.kcp with rmtWnd := h.wnd.toUInt32 }
  let kcp := ikcpShrinkBuf (ikcpParseUna kcp h.una)
  let st := { st with kcp }
  if h.cmd.toUInt32 = ikcpCmdAck then inputAck st h
  else if h.cmd.toUInt32 = ikcpCmdPush then { st with kcp := inputPush st.kcp h data }
  else if h.cmd.toUInt32 = ikcpCmdWask then
    { st with kcp := { st.kcp with probe := st.kcp.probe ||| ikcpAskTell } }
  else st

/-- The four commands the loop lets through. -/
def Header.KnownCmd (h : Header) : Prop :=
  h.cmd.toUInt32 = ikcpCmdPush ∨ h.cmd.toUInt32 = ikcpCmdAck ∨
    h.cmd.toUInt32 = ikcpCmdWask ∨ h.cmd.toUInt32 = ikcpCmdWins

instance (h : Header) : Decidable h.KnownCmd := by
  unfold Header.KnownCmd
  infer_instance

/-- The loop of `ikcp_input`; the result is `0` when it is left by `break`.
Every round reads at least one header, so the length of the datagram is enough
fuel. -/
def inputLoop : Nat → InputState → Bytes → Int × InputState
  | 0, st, _ => (0, st)
  | fuel + 1, st, data =>
      if data.length < ikcpOverhead.toNat then (0, st)
      else
        let (h, body) := decodeHeader data
        if h.conv ≠ st.kcp.conv then (-1, st)
        else if body.length < h.len.toNat ∨ h.len.toInt32 < 0 then (-2, st)
        else if ¬ h.KnownCmd then (-3, st)
        else
          inputLoop fuel (inputSegment st h (body.take h.len.toNat)) (body.drop h.len.toNat)

/-- Slow start below `ssthresh`, additive growth above it. -/
def raiseCwnd (kcp : Kcpcb) : Kcpcb :=
  let mss := kcp.mss
  if kcp.cwnd < kcp.ssthresh then
    { kcp with cwnd := kcp.cwnd + 1, incr := kcp.incr + mss }
  else
    let incr := if kcp.incr < mss then mss else kcp.incr
    let incr := incr + ((mss * mss) / incr + mss / 16)
    { kcp with
      incr := incr
      cwnd :=
        if (kcp.cwnd + 1) * mss ≤ incr then (incr + mss - 1) / (if mss > 0 then mss else 1)
        else kcp.cwnd }

/-- The congestion window update at the end of `ikcp_input`. -/
def growCwnd (kcp : Kcpcb) (prevUna : UInt32) : Kcpcb :=
  if itimediff kcp.sndUna prevUna > 0 ∧ kcp.cwnd < kcp.rmtWnd then
    let kcp := raiseCwnd kcp
    if kcp.cwnd > kcp.rmtWnd then
      { kcp with cwnd := kcp.rmtWnd, incr := kcp.rmtWnd * kcp.mss }
    else kcp
  else kcp

/-- `(int)size` of the source. -/
def asInt (size : Nat) : Int := (UInt32.ofNat size).toInt32.toInt

def ikcpInput (kcp : Kcpcb) (data : Bytes) : Int × Kcpcb :=
  if asInt data.length < ikcpOverhead.toNat then (-1, kcp)
  else
    let start : InputState := { kcp, flag := false, maxack := 0, latestTs := 0 }
    let (ret, st) := inputLoop data.length start data
    if ret < 0 then (ret, st.kcp)
    else
      let done := if st.flag then ikcpParseFastack st.kcp st.maxack st.latestTs else st.kcp
      (0, growCwnd done kcp.sndUna)

end KcpTest.Kcp
