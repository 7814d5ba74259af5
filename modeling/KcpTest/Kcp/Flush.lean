import KcpTest.Kcp.Input
import KcpTest.Library.Packing

/-!
Contract: `ikcp_flush`, `ikcp_update` and `ikcp_check`, the clocked side of KCP.

Owns: packing acknowledgements, probes and data segments into datagrams,
admitting queued segments to the send window, the three reasons to transmit a
segment, the flush timer, and the time of the next update.
-/

set_option autoImplicit false

namespace KcpTest.Kcp

open KcpTest.Library

/-! ### The staging buffer -/

/-- The bytes between `buffer` and `ptr`, and what `ikcp_output` has handed to
the callback; it skips an empty buffer. -/
abbrev Staging := Packing.Staging UInt8

/-- The check in front of every encode in `ikcp_flush` (`size + need > mtu`
outputs the staged bytes), the encode, and the copy of the data. -/
def putSegment (mtu : UInt32) (staging : Staging) (seg : Segment) : Staging :=
  staging.put mtu.toNat seg.encode

/-! ### Acknowledgements and probes -/

def ikcpWndUnused (kcp : Kcpcb) : UInt32 :=
  if kcp.nrcvQue < kcp.rcvWnd.toNat then kcp.rcvWnd - UInt32.ofNat kcp.nrcvQue else 0

/-- The local `seg` of `ikcp_flush` before the acknowledgement loop. -/
def flushTemplate (kcp : Kcpcb) : Segment where
  conv := kcp.conv
  cmd := ikcpCmdAck
  frg := 0
  wnd := ikcpWndUnused kcp
  una := kcp.rcvNxt
  sn := 0
  ts := 0

/-- One round of the acknowledgement loop: `seg` takes the number and time of
the acknowledgement and is encoded. -/
def putAck (mtu : UInt32) (pass : Staging × Segment) (ack : UInt32 × UInt32) :
    Staging × Segment :=
  let seg := { pass.2 with sn := ack.1, ts := ack.2 }
  (putSegment mtu pass.1 seg, seg)

/-- The window probe timer. -/
def probeTimer (kcp : Kcpcb) : Kcpcb :=
  if kcp.rmtWnd = 0 then
    if kcp.probeWait = 0 then
      { kcp with probeWait := ikcpProbeInit, tsProbe := kcp.current + ikcpProbeInit }
    else if itimediff kcp.current kcp.tsProbe ≥ 0 then
      let wait := if kcp.probeWait < ikcpProbeInit then ikcpProbeInit else kcp.probeWait
      let wait := wait + wait / 2
      let wait := if wait > ikcpProbeLimit then ikcpProbeLimit else wait
      { kcp with
        probeWait := wait
        tsProbe := kcp.current + wait
        probe := kcp.probe ||| ikcpAskSend }
    else kcp
  else { kcp with tsProbe := 0, probeWait := 0 }

/-- One of the two probe commands, sent when its bit is set. -/
def putProbe (kcp : Kcpcb) (seg : Segment) (ask cmd : UInt32) (staging : Staging) : Staging :=
  if kcp.probe &&& ask ≠ 0 then putSegment kcp.mtu staging { seg with cmd := cmd } else staging

/-! ### Data segments -/

/-- `cwnd` of `ikcp_flush`. -/
def sendWindow (kcp : Kcpcb) : UInt32 :=
  let cwnd := imin kcp.sndWnd kcp.rmtWnd
  if kcp.nocwnd = 0 then imin kcp.cwnd cwnd else cwnd

/-- The fields a segment gets when it enters `snd_buf`. -/
def admitSegment (kcp : Kcpcb) (wnd : UInt32) (newseg : Segment) : Segment :=
  { newseg with
    conv := kcp.conv
    cmd := ikcpCmdPush
    wnd := wnd
    ts := kcp.current
    sn := kcp.sndNxt
    una := kcp.rcvNxt
    resendts := kcp.current
    rto := kcp.rxRto.toUInt32
    fastack := 0
    xmit := 0 }

/-- The loop that moves segments from `snd_queue` to `snd_buf`, over
`snd_queue`. -/
def admitLoop (wnd cwnd : UInt32) : List Segment → Kcpcb → Kcpcb
  | [], kcp => { kcp with sndQueue := [] }
  | newseg :: queue, kcp =>
      if itimediff kcp.sndNxt (kcp.sndUna + cwnd) < 0 then
        admitLoop wnd cwnd queue
          { kcp with
            sndBuf := kcp.sndBuf ++ [admitSegment kcp wnd newseg]
            sndNxt := kcp.sndNxt + 1 }
      else { kcp with sndQueue := newseg :: queue }

/-- Why a segment of `snd_buf` is transmitted in this flush. -/
inductive Reason where
  | first
  | timeout
  | fast
  deriving DecidableEq

def fastresendLimit (kcp : Kcpcb) : UInt32 :=
  if kcp.fastresend > 0 then kcp.fastresend.toUInt32 else 0xffffffff

/-- The three-way test in front of `needsend`. -/
def sendReason (kcp : Kcpcb) (segment : Segment) : Option Reason :=
  if segment.xmit = 0 then some .first
  else if itimediff kcp.current segment.resendts ≥ 0 then some .timeout
  else if segment.fastack ≥ fastresendLimit kcp then
    if segment.xmit.toInt32 ≤ kcp.fastlimit ∨ kcp.fastlimit ≤ 0 then some .fast else none
  else none

/-- The timer fields of a segment that is transmitted for `reason`. -/
def rearm (kcp : Kcpcb) (segment : Segment) : Reason → Segment
  | .first =>
      let rtomin := if kcp.nodelay = 0 then (kcp.rxRto >>> 3).toUInt32 else 0
      { segment with
        xmit := segment.xmit + 1
        rto := kcp.rxRto.toUInt32
        resendts := kcp.current + kcp.rxRto.toUInt32 + rtomin }
  | .timeout =>
      let rto :=
        if kcp.nodelay = 0 then segment.rto + imax segment.rto kcp.rxRto.toUInt32
        else
          let step := if kcp.nodelay < 2 then segment.rto.toInt32 else kcp.rxRto
          segment.rto + (step / 2).toUInt32
      { segment with xmit := segment.xmit + 1, rto := rto, resendts := kcp.current + rto }
  | .fast =>
      { segment with
        xmit := segment.xmit + 1
        fastack := 0
        resendts := kcp.current + segment.rto }

/-- A transmitted segment as it is encoded and kept in `snd_buf`. -/
def stamp (kcp : Kcpcb) (wnd : UInt32) (segment : Segment) (reason : Reason) : Segment :=
  { rearm kcp segment reason with ts := kcp.current, wnd := wnd, una := kcp.rcvNxt }

/-- What the data loop of `ikcp_flush` changes: the staging buffer, the segments
of `snd_buf` it has passed, and the fields and locals it counts in. -/
structure DataPass where
  staging : Staging
  passed : List Segment
  xmit : UInt32
  state : UInt32
  change : Nat
  lost : Bool

/-- One round of the data loop. -/
def flushSegment (kcp : Kcpcb) (wnd : UInt32) (pass : DataPass) (segment : Segment) :
    DataPass :=
  match sendReason kcp segment with
  | none => { pass with passed := pass.passed ++ [segment] }
  | some reason =>
      let segment := stamp kcp wnd segment reason
      { staging := putSegment kcp.mtu pass.staging segment
        passed := pass.passed ++ [segment]
        xmit := if reason = .timeout then pass.xmit + 1 else pass.xmit
        state := if segment.xmit ≥ kcp.deadLink then 0xffffffff else pass.state
        change := if reason = .fast then pass.change + 1 else pass.change
        lost := if reason = .timeout then true else pass.lost }

/-- `if (change)` at the end of `ikcp_flush`. -/
def shrinkOnChange (kcp : Kcpcb) (change : Nat) : Kcpcb :=
  if change ≠ 0 then
    let ssthresh := (kcp.sndNxt - kcp.sndUna) / 2
    let ssthresh := if ssthresh < ikcpThreshMin then ikcpThreshMin else ssthresh
    { kcp with
      ssthresh := ssthresh
      cwnd := ssthresh + fastresendLimit kcp
      incr := (ssthresh + fastresendLimit kcp) * kcp.mss }
  else kcp

/-- `if (lost)` at the end of `ikcp_flush`. -/
def shrinkOnLoss (kcp : Kcpcb) (lost : Bool) (cwnd : UInt32) : Kcpcb :=
  if lost then
    let ssthresh := cwnd / 2
    { kcp with
      ssthresh := if ssthresh < ikcpThreshMin then ikcpThreshMin else ssthresh
      cwnd := 1
      incr := kcp.mss }
  else kcp

/-- The window changes at the end of `ikcp_flush`. -/
def updateSsthresh (kcp : Kcpcb) (change : Nat) (lost : Bool) (cwnd : UInt32) : Kcpcb :=
  let kcp := shrinkOnLoss (shrinkOnChange kcp change) lost cwnd
  if kcp.cwnd < 1 then { kcp with cwnd := 1, incr := kcp.mss } else kcp

/-! ### Flush and update -/

def ikcpFlush (kcp : Kcpcb) : Kcpcb × List Datagram :=
  if kcp.updated = 0 then (kcp, [])
  else
    let acked := kcp.acklist.foldl (putAck kcp.mtu) (Packing.Staging.empty, flushTemplate kcp)
    let seg := acked.2
    let kcp := probeTimer { kcp with acklist := [] }
    let staging := putProbe kcp seg ikcpAskSend ikcpCmdWask acked.1
    let staging := putProbe kcp seg ikcpAskTell ikcpCmdWins staging
    let kcp := { kcp with probe := 0 }
    let cwnd := sendWindow kcp
    let kcp := admitLoop seg.wnd cwnd kcp.sndQueue kcp
    let pass := kcp.sndBuf.foldl (flushSegment kcp seg.wnd)
      { staging, passed := [], xmit := kcp.xmit, state := kcp.state, change := 0, lost := false }
    let kcp := { kcp with sndBuf := pass.passed, xmit := pass.xmit, state := pass.state }
    (updateSsthresh kcp pass.change pass.lost cwnd, pass.staging.finish)

def ikcpUpdate (kcp : Kcpcb) (current : UInt32) : Kcpcb × List Datagram :=
  let kcp := { kcp with current := current }
  let kcp := if kcp.updated = 0 then { kcp with updated := 1, tsFlush := kcp.current } else kcp
  let slap := itimediff kcp.current kcp.tsFlush
  let (kcp, slap) :=
    if slap ≥ 10000 ∨ slap < -10000 then ({ kcp with tsFlush := kcp.current }, 0)
    else (kcp, slap)
  if slap ≥ 0 then
    let tsFlush := kcp.tsFlush + kcp.interval
    let tsFlush :=
      if itimediff kcp.current tsFlush ≥ 0 then kcp.current + kcp.interval else tsFlush
    ikcpFlush { kcp with tsFlush := tsFlush }
  else (kcp, [])

/-- The loop of `ikcp_check` over `snd_buf`: `none` when a segment is due, else
the least time to a retransmission, from `tmPacket` down. -/
def packetTime (current : UInt32) : List Segment → Int → Option Int
  | [], tmPacket => some tmPacket
  | seg :: rest, tmPacket =>
      let diff := itimediff seg.resendts current
      if diff ≤ 0 then none
      else packetTime current rest (if diff < tmPacket then diff else tmPacket)

/-- `ikcp_check`: when to call `ikcp_update` next. -/
def ikcpCheck (kcp : Kcpcb) (current : UInt32) : UInt32 :=
  if kcp.updated = 0 then current
  else
    let tsFlush :=
      if itimediff current kcp.tsFlush ≥ 10000 ∨ itimediff current kcp.tsFlush < -10000 then
        current
      else kcp.tsFlush
    if itimediff current tsFlush ≥ 0 then current
    else
      let tmFlush := itimediff tsFlush current
      match packetTime current kcp.sndBuf 0x7fffffff with
      | none => current
      | some tmPacket =>
          let minimal := UInt32.ofInt (if tmPacket < tmFlush then tmPacket else tmFlush)
          current + (if minimal ≥ kcp.interval then kcp.interval else minimal)

end KcpTest.Kcp
