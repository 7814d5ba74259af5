import KcpTest.Endpoint.Output
import Mathlib.Logic.Relation

/-!
Contract: two endpoints and the network between them.

Owns: an endpoint with the record of what happened at it, the calls a program
and the network may make, and the runs of a pair of endpoints.

The network keeps every datagram that was ever handed to `kcp_udp_output`. A
step may deliver any of them any number of times or never, so loss, duplication,
delay and reordering need no steps of their own.
-/

set_option autoImplicit false

namespace KcpTest.Endpoint

open KcpTest.Kcp

/-! ### One endpoint -/

/-- A message that `ikcp_send` accepted, with the segments it appended to
`snd_queue` for it. -/
structure Accepted where
  message : Bytes
  segments : List Segment

/-- A control block and the record of what happened at it: the messages
accepted and received, and every datagram handed to `kcp_udp_output`. -/
structure Peer where
  kcp : Kcpcb
  accepted : List Accepted
  received : List Bytes
  wire : List Datagram

/-- An endpoint as `createKCP` leaves it. -/
def Peer.start : Peer where
  kcp := createKCP
  accepted := []
  received := []
  wire := []

/-- The message `kcpSend` gets accepted, if any. -/
def Call.accepted (kcp : Kcpcb) : Call → List Accepted
  | .send buffer len before _ =>
      let kcp := (ikcpUpdate kcp (clock32 before)).1
      let sent := ikcpSend kcp buffer len
      if sent.1 ≥ 0 then
        [{ message := buffer.take len.toInt.toNat
           segments := sent.2.sndQueue.drop kcp.sndQueue.length }]
      else []
  | _ => []

/-- The message `ikcp_recv` returns, if any. -/
def Call.received (kcp : Kcpcb) : Call → List Bytes
  | .recv len => if (ikcpRecv kcp len).ret ≥ 0 then [(ikcpRecv kcp len).data] else []
  | _ => []

/-- The endpoint after a call. -/
def Peer.call (peer : Peer) (call : Call) : Peer where
  kcp := (call.run peer.kcp).1
  accepted := peer.accepted ++ call.accepted peer.kcp
  received := peer.received ++ call.received peer.kcp
  wire := peer.wire ++ (call.run peer.kcp).2

/-- The segments that left `snd_queue` for the network: those of the accepted
messages that do not wait there any more. -/
def Peer.sent (peer : Peer) : Nat :=
  (peer.accepted.flatMap Accepted.segments).length - peer.kcp.sndQueue.length

/-- What may be called while the other endpoint has emitted `peerWire`: only its
datagrams arrive, and a receive has a buffer. -/
def Call.Allowed (peerWire : List Datagram) : Call → Prop
  | .input data => data ∈ peerWire
  | .recv len => 0 ≤ len.toInt
  | _ => True

/-! ### Two endpoints -/

structure Pair where
  near : Peer
  far : Peer

def Pair.start : Pair where
  near := Peer.start
  far := Peer.start

/-- One call at either endpoint. -/
inductive Step : Pair → Pair → Prop
  | near (pair : Pair) (call : Call) (allowed : call.Allowed pair.far.wire) :
      Step pair { pair with near := pair.near.call call }
  | far (pair : Pair) (call : Call) (allowed : call.Allowed pair.near.wire) :
      Step pair { pair with far := pair.far.call call }

/-- Any number of calls in any order, from the start. -/
abbrev Reachable (pair : Pair) : Prop := Relation.ReflTransGen Step Pair.start pair

/-! ### Segments that are still held -/

/-- The segment at `position` of the stream from `sender` to `receiver` is in
one of the four queues, with its fragment number and its data. `snd_queue` holds
the positions from `snd_nxt` on, `rcv_queue` those up to `rcv_nxt`. -/
inductive HeldAt (sender receiver : Kcpcb) (position : Nat) (fragment : Fragment) : Prop
  | sndQueue (seg : Segment) (unsent : sender.sndNxt.toNat ≤ position)
      (found : sender.sndQueue[position - sender.sndNxt.toNat]? = some seg)
      (same : seg.fragment = fragment)
  | sndBuf (seg : Segment) (member : seg ∈ sender.sndBuf) (number : seg.sn.toNat = position)
      (same : seg.fragment = fragment)
  | rcvBuf (seg : Segment) (member : seg ∈ receiver.rcvBuf) (number : seg.sn.toNat = position)
      (same : seg.fragment = fragment)
  | rcvQueue (seg : Segment)
      (arrived : receiver.rcvNxt.toNat ≤ position + receiver.rcvQueue.length)
      (found : receiver.rcvQueue[position + receiver.rcvQueue.length - receiver.rcvNxt.toNat]? =
        some seg)
      (same : seg.fragment = fragment)

/-- Every segment of an accepted message that has not been received is held. -/
def NothingLost (sender receiver : Peer) : Prop :=
  ∀ before entry after, sender.accepted = before ++ entry :: after →
    receiver.received.length ≤ before.length →
    ∀ index seg, entry.segments[index]? = some seg →
      HeldAt sender.kcp receiver.kcp
        ((before.flatMap Accepted.segments).length + index) seg.fragment

/-- One direction of the exchange is sound: what was received is a prefix of
what was accepted, and the rest is still held. -/
structure Delivers (sender receiver : Peer) : Prop where
  received_prefix : receiver.received <+: sender.accepted.map Accepted.message
  nothing_lost : NothingLost sender receiver

end KcpTest.Endpoint
