import KcpTest.Library.Serial

/-!
Contract: the KCP control block and its configuration calls.

Owns: the constants of `ikcp.c`, the segment and control-block records, the
clamping helpers, clock distances, `ikcp_create`, the calls that configure a
block and `ikcp_waitsnd`.

The intrusive queues are lists in queue order, and the counters `nsnd_que`,
`nrcv_que`, `nsnd_buf` and `nrcv_buf` are the lengths of these lists: the source
changes a counter exactly where it links or unlinks a node. A segment's `len`
is the length of its data. The log hooks stay unset and are left out, and
allocation is taken to succeed.
-/

set_option autoImplicit false

namespace KcpTest.Kcp

open KcpTest.Library

abbrev Bytes := List UInt8

/-- One UDP payload. -/
abbrev Datagram := Bytes

/-! ### Constants -/

def ikcpRtoNdl : UInt32 := 30
def ikcpRtoMin : UInt32 := 100
def ikcpRtoDef : UInt32 := 200
def ikcpRtoMax : UInt32 := 60000
def ikcpCmdPush : UInt32 := 81
def ikcpCmdAck : UInt32 := 82
def ikcpCmdWask : UInt32 := 83
def ikcpCmdWins : UInt32 := 84
def ikcpAskSend : UInt32 := 1
def ikcpAskTell : UInt32 := 2
def ikcpWndSnd : UInt32 := 32
def ikcpWndRcv : UInt32 := 128
def ikcpMtuDef : UInt32 := 1400
def ikcpInterval : UInt32 := 100
def ikcpOverhead : UInt32 := 24
def ikcpDeadlink : UInt32 := 20
def ikcpThreshInit : UInt32 := 2
def ikcpThreshMin : UInt32 := 2
def ikcpProbeInit : UInt32 := 7000
def ikcpProbeLimit : UInt32 := 120000
def ikcpFastackLimit : Int32 := 5

/-! ### Clamping and clock distance -/

def imin (a b : UInt32) : UInt32 := if a ≤ b then a else b

def imax (a b : UInt32) : UInt32 := if a ≥ b then a else b

def ibound (lower middle upper : UInt32) : UInt32 := imin (imax lower middle) upper

/-- `(IINT32)(later - earlier)`, widened to `long`. -/
def itimediff (later earlier : UInt32) : Int := (later - earlier).toInt32.toInt

theorem itimediff_eq_distance (later earlier : UInt32) :
    itimediff later earlier = Serial.distance later.toBitVec earlier.toBitVec := rfl

/-- Below `2 ^ 31` the wrap-around comparison is the plain one. -/
theorem itimediff_of_small {later earlier : UInt32} (laterLt : later.toNat < 2 ^ 31)
    (earlierLt : earlier.toNat < 2 ^ 31) :
    itimediff later earlier = (later.toNat : Int) - earlier.toNat := by
  rw [itimediff_eq_distance,
    Serial.distance_of_near (Serial.near_of_lt_half (2 ^ 31) (by decide)
      laterLt earlierLt)]
  rfl

/-- The number after one below the last. -/
theorem toNat_succ {sn : UInt32} (below : sn.toNat + 1 < 2 ^ 32) :
    (sn + 1).toNat = sn.toNat + 1 := by
  have one : (1 : UInt32).toNat = 1 := rfl
  rw [UInt32.toNat_add, one]
  omega

theorem itimediff_self (current : UInt32) : itimediff current current = 0 := by
  rw [itimediff, UInt32.sub_self]
  rfl

/-- A clock distance after the earlier one has moved on. -/
theorem itimediff_add {later earlier step : UInt32}
    (low : -2 ^ 31 ≤ itimediff later earlier - step.toNat)
    (high : itimediff later earlier - step.toNat < 2 ^ 31) :
    itimediff later (earlier + step) = itimediff later earlier - step.toNat := by
  rw [itimediff_eq_distance] at low high ⊢
  exact (Serial.distance_add later.toBitVec earlier.toBitVec step.toBitVec).trans
    (Int.bmod_eq_of_le low high)

/-- A clock distance after the later one has moved on. -/
theorem itimediff_add_left {later earlier step : UInt32}
    (low : -2 ^ 31 ≤ itimediff later earlier + step.toNat)
    (high : itimediff later earlier + step.toNat < 2 ^ 31) :
    itimediff (later + step) earlier = itimediff later earlier + step.toNat := by
  rw [itimediff_eq_distance] at low high ⊢
  exact (Serial.distance_add_left later.toBitVec earlier.toBitVec step.toBitVec).trans
    (Int.bmod_eq_of_le low high)

/-- The clock distance the other way round. -/
theorem itimediff_swap {later earlier : UInt32} (low : -2 ^ 31 < itimediff later earlier)
    (high : itimediff later earlier < 2 ^ 31) :
    itimediff earlier later = -itimediff later earlier := by
  rw [itimediff_eq_distance] at low high ⊢
  rw [itimediff_eq_distance]
  refine (Serial.distance_swap later.toBitVec earlier.toBitVec).trans (Int.bmod_eq_of_le ?_ ?_)
  · change -2 ^ 31 ≤ _
    omega
  · change _ < (2 ^ 31 : Int)
    omega

/-- The window test of the admission loop, for a counter inside the window. -/
theorem itimediff_window_neg {next base width : UInt32}
    (inside : (next - base).toNat < width.toNat) (half : width.toNat ≤ 2 ^ 31) :
    itimediff next (base + width) < 0 := by
  rw [itimediff_eq_distance]
  apply Serial.distance_add_neg
  · exact inside
  · change 2 * width.toNat ≤ 2 ^ 32
    omega

/-! ### Records -/

/-- `struct IKCPSEG`. -/
structure Segment where
  conv : UInt32 := 0
  cmd : UInt32 := 0
  frg : UInt32 := 0
  wnd : UInt32 := 0
  ts : UInt32 := 0
  sn : UInt32 := 0
  una : UInt32 := 0
  resendts : UInt32 := 0
  rto : UInt32 := 0
  fastack : UInt32 := 0
  xmit : UInt32 := 0
  data : Bytes := []
  deriving DecidableEq

/-- The field `len` of the source. -/
def Segment.len (seg : Segment) : Nat := seg.data.length

/-- `struct IKCPCB`, without the fields no modelled function reads
(`ts_recent`, `ts_lastack`, `user` and the log hooks). -/
structure Kcpcb where
  conv : UInt32
  mtu : UInt32
  mss : UInt32
  state : UInt32
  sndUna : UInt32
  sndNxt : UInt32
  rcvNxt : UInt32
  ssthresh : UInt32
  rxRttval : Int32
  rxSrtt : Int32
  rxRto : Int32
  rxMinrto : Int32
  sndWnd : UInt32
  rcvWnd : UInt32
  rmtWnd : UInt32
  cwnd : UInt32
  probe : UInt32
  current : UInt32
  interval : UInt32
  tsFlush : UInt32
  xmit : UInt32
  nodelay : UInt32
  updated : UInt32
  tsProbe : UInt32
  probeWait : UInt32
  deadLink : UInt32
  incr : UInt32
  sndQueue : List Segment
  rcvQueue : List Segment
  sndBuf : List Segment
  rcvBuf : List Segment
  acklist : List (UInt32 × UInt32)
  fastresend : Int32
  fastlimit : Int32
  nocwnd : Int32
  stream : Int32

/-- The field `nrcv_que` of the source. -/
def Kcpcb.nrcvQue (kcp : Kcpcb) : Nat := kcp.rcvQueue.length

/-! ### Configuration -/

def ikcpCreate (conv : UInt32) : Kcpcb where
  conv := conv
  sndUna := 0
  sndNxt := 0
  rcvNxt := 0
  tsProbe := 0
  probeWait := 0
  sndWnd := ikcpWndSnd
  rcvWnd := ikcpWndRcv
  rmtWnd := ikcpWndRcv
  cwnd := 0
  incr := 0
  probe := 0
  mtu := ikcpMtuDef
  mss := ikcpMtuDef - ikcpOverhead
  stream := 0
  sndQueue := []
  rcvQueue := []
  sndBuf := []
  rcvBuf := []
  state := 0
  acklist := []
  rxSrtt := 0
  rxRttval := 0
  rxRto := ikcpRtoDef.toInt32
  rxMinrto := ikcpRtoMin.toInt32
  current := 0
  interval := ikcpInterval
  tsFlush := ikcpInterval
  nodelay := 0
  updated := 0
  ssthresh := ikcpThreshInit
  fastresend := 0
  fastlimit := ikcpFastackLimit
  nocwnd := 0
  xmit := 0
  deadLink := ikcpDeadlink

def ikcpNodelay (kcp : Kcpcb) (nodelay interval resend nc : Int32) : Kcpcb :=
  let kcp :=
    if nodelay ≥ 0 then
      { kcp with
        nodelay := nodelay.toUInt32
        rxMinrto := if nodelay ≠ 0 then ikcpRtoNdl.toInt32 else ikcpRtoMin.toInt32 }
    else kcp
  let kcp :=
    if interval ≥ 0 then
      { kcp with
        interval :=
          (if interval > 5000 then 5000 else if interval < 10 then 10
            else interval).toUInt32 }
    else kcp
  let kcp := if resend ≥ 0 then { kcp with fastresend := resend } else kcp
  if nc ≥ 0 then { kcp with nocwnd := nc } else kcp

def ikcpWndsize (kcp : Kcpcb) (sndwnd rcvwnd : Int32) : Kcpcb :=
  let kcp := if sndwnd > 0 then { kcp with sndWnd := sndwnd.toUInt32 } else kcp
  if rcvwnd > 0 then { kcp with rcvWnd := imax rcvwnd.toUInt32 ikcpWndRcv } else kcp

/-- `ikcp_setmtu`. The new staging buffer has room for `(mtu + 24) * 3` bytes. -/
def ikcpSetmtu (kcp : Kcpcb) (mtu : Int32) : Int × Kcpcb :=
  if mtu < 50 ∨ mtu < ikcpOverhead.toInt32 then (-1, kcp)
  else (0, { kcp with mtu := mtu.toUInt32, mss := mtu.toUInt32 - ikcpOverhead })

/-- The function `ikcp_interval`; the constant of that name is another. -/
def Kcpcb.ikcpInterval (kcp : Kcpcb) (interval : Int32) : Kcpcb :=
  { kcp with
    interval :=
      (if interval > 5000 then 5000 else if interval < 10 then 10 else interval).toUInt32 }

def ikcpWaitsnd (kcp : Kcpcb) : Nat := kcp.sndBuf.length + kcp.sndQueue.length

end KcpTest.Kcp
