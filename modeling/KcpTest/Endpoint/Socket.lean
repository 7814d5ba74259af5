import KcpTest.Kcp.Flush

/-!
Contract: `KCPSocket`, the wrapper that ties one KCP control block to one UDP
socket.

Owns: `createKCP`, `kcpSend`, the slicing loop of `udpSend`, and the calls a
program can make on an endpoint.

Does **not** own the socket itself: the result of each `sendto` is a parameter,
and the addresses the socket is bound to play no role in what is sent.
-/

set_option autoImplicit false

namespace KcpTest.Endpoint

open KcpTest.Kcp

/-- `KCPSocket::createKCP`. `ikcp_nodelay` runs last and sets `rx_minrto`
again. -/
def createKCP : Kcpcb :=
  let kcp := ikcpCreate 0x11223344
  let kcp := ikcpWndsize kcp 2048 2048
  let kcp := { kcp with rxMinrto := 200 }
  ikcpNodelay kcp 1 10 2 1

/-- `iclock64()` as an `IUINT32` argument. -/
def clock32 (clock : Int64) : UInt32 := clock.toUInt64.toUInt32

/-! ### Sending a message -/

/-- `KCPSocket::kcpSend`, with the values of its two `iclock64()` calls. It
ignores the result of `ikcp_send` and returns `0`. -/
def kcpSend (kcp : Kcpcb) (buffer : Bytes) (len : Int32) (before after : Int64) :
    Kcpcb × List Datagram :=
  let (kcp, first) := ikcpUpdate kcp (clock32 before)
  let kcp := (ikcpSend kcp buffer len).2
  let (kcp, second) := ikcpUpdate kcp (clock32 after)
  (kcp, first ++ second)

/-- The control block between the two updates of `kcpSend`. -/
def kcpSendQueued (kcp : Kcpcb) (buffer : Bytes) (len : Int32) (before : Int64) : Kcpcb :=
  (ikcpSend (ikcpUpdate kcp (clock32 before)).1 buffer len).2

theorem kcpSend_fst (kcp : Kcpcb) (buffer : Bytes) (len : Int32) (before after : Int64) :
    (kcpSend kcp buffer len before after).1 =
      (ikcpUpdate (kcpSendQueued kcp buffer len before) (clock32 after)).1 := by
  simp only [kcpSend, kcpSendQueued]

theorem kcpSend_snd (kcp : Kcpcb) (buffer : Bytes) (len : Int32) (before after : Int64) :
    (kcpSend kcp buffer len before after).2 =
      (ikcpUpdate kcp (clock32 before)).2 ++
        (ikcpUpdate (kcpSendQueued kcp buffer len before) (clock32 after)).2 := by
  simp only [kcpSend, kcpSendQueued]

/-! ### Handing a packet to the socket -/

def udpMtu : Nat := 1460

/-- The loop of `udpSend` over the bytes not yet sent. The results are the
return value and the payloads passed to `sendto`, whose own result for each
call is `sendto call`. -/
def sliceLoop (sendto : Nat → Int) : Nat → Nat → Bytes → Int × List Datagram
  | 0, _, _ => (0, [])
  | fuel + 1, call, rest =>
      if rest.length = 0 then (0, [])
      else
        let s := if rest.length > udpMtu then udpMtu else rest.length
        if sendto call < 0 then (-1, [rest.take s])
        else
          let sended := sliceLoop sendto fuel (call + 1) (rest.drop s)
          (sended.1, rest.take s :: sended.2)

/-- `KCPSocket::udpSend`. Every round sends a byte or more. -/
def udpSend (sendto : Nat → Int) (sendMsg : Bytes) : Int × List Datagram :=
  sliceLoop sendto (sendMsg.length + 1) 0 sendMsg

/-- A packet within the limit is one `sendto`, whatever `sendto` answers. -/
theorem udpSend_whole (sendto : Nat → Int) (sendMsg : Bytes) (some' : sendMsg ≠ [])
    (fits : sendMsg.length ≤ udpMtu) : (udpSend sendto sendMsg).2 = [sendMsg] := by
  have pos : sendMsg.length ≠ 0 := by simpa using some'
  have slice : (if sendMsg.length > udpMtu then udpMtu else sendMsg.length) =
      sendMsg.length := if_neg (by omega)
  obtain ⟨fuel, length⟩ : ∃ fuel, sendMsg.length = fuel + 1 := ⟨sendMsg.length - 1, by omega⟩
  simp only [udpSend, sliceLoop, if_neg pos, slice, List.take_length, List.drop_length]
  split
  · rfl
  · rw [length]
    simp [sliceLoop]

/-! ### What a program may call -/

/-- The calls that reach KCP through an endpoint. -/
inductive Call where
  | send (buffer : Bytes) (len : Int32) (before after : Int64)
  | update (current : UInt32)
  | recv (len : Int32)
  | input (data : Bytes)

/-- The control block after a call, and the buffers handed to
`kcp_udp_output`. -/
def Call.run (kcp : Kcpcb) : Call → Kcpcb × List Datagram
  | .send buffer len before after => kcpSend kcp buffer len before after
  | .update current => ikcpUpdate kcp current
  | .recv len => ((ikcpRecv kcp len).kcp, [])
  | .input data => ((ikcpInput kcp data).2, [])

def runCalls (kcp : Kcpcb) : List Call → Kcpcb × List Datagram
  | [] => (kcp, [])
  | call :: calls =>
      let (kcp, first) := call.run kcp
      let (kcp, rest) := runCalls kcp calls
      (kcp, first ++ rest)

end KcpTest.Endpoint
