import KcpTest.Endpoint.Socket
import KcpTest.Kcp.InputEffect
import KcpTest.Kcp.Message

/-!
Contract: what an endpoint set up by `createKCP` can emit.

Owns: the invariant that every segment held for sending belongs to the
endpoint's conversation and fits a datagram of its own, and the shape of every
buffer handed to `kcp_udp_output`.
-/

set_option autoImplicit false

namespace KcpTest.Endpoint

open KcpTest.Kcp KcpTest.Library

/-! ### Well-formed endpoints -/

/-- The invariant of an endpoint whose configuration is that of `origin`. -/
structure WellFormed (kcp : Kcpcb) : Prop where
  config : kcp.config = createKCP.config
  queue : ∀ seg ∈ kcp.sndQueue, seg.len ≤ 1376 ∧ seg.frg.toNat < 128
  buf : ∀ seg ∈ kcp.sndBuf, seg.conv = createKCP.conv ∧ seg.cmd = ikcpCmdPush ∧
    seg.len ≤ 1376 ∧ seg.frg.toNat < 128

theorem WellFormed.createKCP : WellFormed createKCP where
  config := rfl
  queue := by simp [Endpoint.createKCP, ikcpNodelay, ikcpWndsize, ikcpCreate]
  buf := by simp [Endpoint.createKCP, ikcpNodelay, ikcpWndsize, ikcpCreate]

section Fields

variable {kcp : Kcpcb} (formed : WellFormed kcp)
include formed

theorem WellFormed.conv : kcp.conv = Endpoint.createKCP.conv :=
  (congrArg Config.conv formed.config :)

theorem WellFormed.mtu : kcp.mtu = 1400 := (congrArg Config.mtu formed.config :)

theorem WellFormed.mss : kcp.mss = 1376 := (congrArg Config.mss formed.config :)

theorem WellFormed.mss_toNat : kcp.mss.toNat = 1376 := by
  rw [formed.mss]
  rfl

theorem WellFormed.stream : kcp.stream = 0 := (congrArg Config.stream formed.config :)

/-- `ikcp_send` rejects the message or appends segments that spell it. -/
theorem WellFormed.ikcpSend_cases (buffer : Bytes) (len : Int32) :
    ((ikcpSend kcp buffer len).1 < 0 ∧ (ikcpSend kcp buffer len).2 = kcp) ∨
      ∃ segs, 0 ≤ (ikcpSend kcp buffer len).1 ∧
        (ikcpSend kcp buffer len).2 = { kcp with sndQueue := kcp.sndQueue ++ segs } ∧
        Spells (buffer.take len.toInt.toNat) (segs.map Segment.fragment) ∧
        ∀ seg ∈ segs, seg.len ≤ 1376 := by
  have mss := formed.mss_toNat
  have effect := ikcpSend_effect kcp buffer len formed.stream (by omega) (by omega)
  rwa [mss] at effect

theorem WellFormed.short : kcp.Short where
  room := by
    rw [formed.mtu]
    decide
  queue := fun seg member => by
    have := (formed.queue seg member).1
    rw [formed.mtu]
    change 24 + seg.len ≤ 1400
    omega
  buf := fun seg member => by
    have := (formed.buf seg member).2.2.1
    rw [formed.mtu]
    change 24 + seg.len ≤ 1400
    omega

end Fields

/-! ### Every call keeps the invariant -/

theorem WellFormed.keepsOutbound {kcp kcp' : Kcpcb} (formed : WellFormed kcp)
    (keeps : KeepsOutbound kcp kcp') : WellFormed kcp' where
  config := keeps.config.trans formed.config
  queue := by
    rw [keeps.sndQueue]
    exact formed.queue
  buf := fun seg member => by
    obtain ⟨old, inBuf, core⟩ := List.mem_map.mp (keeps.kept seg.core (List.mem_map_of_mem member))
    obtain ⟨conv, cmd, len, frg⟩ := formed.buf old inBuf
    have sameData : old.data = seg.data := (congrArg Segment.data core :)
    exact ⟨(congrArg Segment.conv core :) ▸ conv, (congrArg Segment.cmd core :) ▸ cmd,
      by rwa [Segment.len, ← sameData], (congrArg Segment.frg core :) ▸ frg⟩

theorem WellFormed.flush {kcp kcp' : Kcpcb} {moved : List Segment} (formed : WellFormed kcp)
    (effect : FlushEffect kcp kcp' moved) : WellFormed kcp' where
  config := effect.config.trans formed.config
  queue := fun seg member => formed.queue seg (by
    rw [effect.queue]
    exact List.mem_append_right _ member)
  buf := fun seg member => by
    have core : seg.core ∈ kcp.sndBuf.map Segment.core ++ numbered kcp.conv kcp.sndNxt moved :=
      effect.sndBuf ▸ List.mem_map_of_mem member
    rcases List.mem_append.mp core with old | new
    · obtain ⟨other, inBuf, same⟩ := List.mem_map.mp old
      obtain ⟨conv, cmd, len, frg⟩ := formed.buf other inBuf
      have sameData : other.data = seg.data := (congrArg Segment.data same :)
      exact ⟨(congrArg Segment.conv same :) ▸ conv, (congrArg Segment.cmd same :) ▸ cmd,
        by rwa [Segment.len, ← sameData], (congrArg Segment.frg same :) ▸ frg⟩
    · obtain ⟨source, inMoved, conv, cmd, frg, data⟩ := mem_numbered new
      obtain ⟨len, small⟩ := formed.queue source (by
        rw [effect.queue]
        exact List.mem_append_left _ inMoved)
      refine ⟨conv.trans formed.conv, cmd, ?_, ?_⟩
      · have sameData : seg.data = source.data := data
        rwa [Segment.len, sameData]
      · have sameFrg : seg.frg = source.frg := frg
        rwa [sameFrg]

theorem WellFormed.update {kcp : Kcpcb} (formed : WellFormed kcp) (current : UInt32) :
    WellFormed (ikcpUpdate kcp current).1 := by
  obtain ⟨moved, effect, -⟩ := ikcpUpdate_effect kcp current
  exact formed.flush effect

theorem WellFormed.send {kcp : Kcpcb} (formed : WellFormed kcp) (buffer : Bytes) (len : Int32) :
    WellFormed (ikcpSend kcp buffer len).2 := by
  rcases formed.ikcpSend_cases buffer len with ⟨-, same⟩ | ⟨segs, -, result, spells, short⟩
  · rw [same]
    exact formed
  · rw [result]
    refine { formed with queue := fun seg member => ?_ }
    rcases List.mem_append.mp member with old | new
    · exact formed.queue seg old
    · exact ⟨short seg new, spells.numbers_small seg.fragment (List.mem_map_of_mem new)⟩

theorem WellFormed.recv {kcp : Kcpcb} (formed : WellFormed kcp) (len : Int32) :
    WellFormed (ikcpRecv kcp len).kcp := by
  rcases ikcpRecv_cases kcp len with ⟨-, same, -⟩ | ⟨-, -, -, -, probe, result⟩
  · rw [same]
    exact formed
  · apply formed.keepsOutbound
    rw [result]
    split <;> exact ⟨rfl, rfl, rfl, fun _ member => member⟩

theorem WellFormed.input {kcp : Kcpcb} (formed : WellFormed kcp) (data : Bytes) :
    WellFormed (ikcpInput kcp data).2 :=
  formed.keepsOutbound (ikcpInput_keepsOutbound kcp data)

theorem WellFormed.kcpSend {kcp : Kcpcb} (formed : WellFormed kcp) (buffer : Bytes)
    (len : Int32) (before after : Int64) :
    WellFormed (Endpoint.kcpSend kcp buffer len before after).1 := by
  rw [kcpSend_fst, kcpSendQueued]
  exact ((formed.update (clock32 before)).send buffer len).update (clock32 after)

theorem WellFormed.run {kcp : Kcpcb} (formed : WellFormed kcp) (call : Call) :
    WellFormed (call.run kcp).1 := by
  cases call with
  | send buffer len before after => exact formed.kcpSend buffer len before after
  | update current => exact formed.update current
  | recv len => exact formed.recv len
  | input data => exact formed.input data

theorem WellFormed.runCalls {kcp : Kcpcb} (formed : WellFormed kcp) (calls : List Call) :
    WellFormed (Endpoint.runCalls kcp calls).1 := by
  induction calls generalizing kcp with
  | nil => exact formed
  | cons call calls inductionHypothesis => exact inductionHypothesis (formed.run call)

/-! ### What is emitted -/

/-- A segment an endpoint may put on the wire. -/
structure Sendable (seg : Segment) : Prop extends seg.Readable where
  conv : seg.conv = createKCP.conv

theorem WellFormed.sendable {kcp : Kcpcb} (formed : WellFormed kcp) {buf : List Segment}
    (wellFormed : ∀ seg ∈ buf, seg.conv = Endpoint.createKCP.conv ∧ seg.cmd = ikcpCmdPush ∧
      seg.len ≤ 1376 ∧ seg.frg.toNat < 128) {seg : Segment} (emitted : Emitted kcp buf seg) :
    Sendable seg := by
  cases emitted with
  | ack cmd conv una frg data pending =>
      exact
        { known := Or.inr (Or.inl cmd)
          frg := by simp [frg]
          len := by simp [Segment.len, data]
          conv := conv.trans formed.conv }
  | probe cmd conv una frg data =>
      exact
        { known := Or.inr (Or.inr cmd)
          frg := by simp [frg]
          len := by simp [Segment.len, data]
          conv := conv.trans formed.conv }
  | data member una =>
      obtain ⟨kept, inBuf, core⟩ := List.mem_map.mp member
      obtain ⟨conv, cmd, len, frg⟩ := wellFormed kept inBuf
      have sameCmd : kept.cmd = seg.cmd := (congrArg Segment.cmd core :)
      have sameFrg : kept.frg = seg.frg := (congrArg Segment.frg core :)
      have sameData : kept.data = seg.data := (congrArg Segment.data core :)
      exact
        { known := Or.inl (sameCmd ▸ cmd)
          frg := by
            rw [← sameFrg]
            omega
          len := by
            rw [Segment.len, ← sameData]
            have : kept.data.length ≤ 1376 := len
            omega
          conv := (congrArg Segment.conv core :) ▸ conv }

/-- What `kcp_udp_output` receives from an endpoint. -/
abbrev OutputBuffer (packet : Datagram) : Prop :=
  Packing.Packet Segment.encode Sendable 1400 packet

theorem WellFormed.emits_update {kcp : Kcpcb} (formed : WellFormed kcp) (current : UInt32) :
    ∀ packet ∈ (ikcpUpdate kcp current).2, OutputBuffer packet := by
  intro packet member
  obtain ⟨moved, effect, emits⟩ := ikcpUpdate_effect kcp current
  have sound := emits formed.short packet member
  rw [formed.mtu] at sound
  exact sound.mono fun seg emitted => formed.sendable (formed.flush effect).buf emitted

theorem WellFormed.emits_run {kcp : Kcpcb} (formed : WellFormed kcp) (call : Call) :
    ∀ packet ∈ (call.run kcp).2, OutputBuffer packet := by
  cases call with
  | send buffer len before after =>
      intro packet member
      rw [Call.run, kcpSend_snd, kcpSendQueued] at member
      rcases List.mem_append.mp member with first | second
      · exact formed.emits_update _ packet first
      · exact ((formed.update _).send buffer len).emits_update _ packet second
  | update current => exact formed.emits_update current
  | recv len => simp [Call.run]
  | input data => simp [Call.run]

theorem WellFormed.emits_runCalls {kcp : Kcpcb} (formed : WellFormed kcp) (calls : List Call) :
    ∀ packet ∈ (Endpoint.runCalls kcp calls).2, OutputBuffer packet := by
  induction calls generalizing kcp with
  | nil => simp [Endpoint.runCalls]
  | cons call calls inductionHypothesis =>
      intro packet member
      simp only [Endpoint.runCalls] at member
      rcases List.mem_append.mp member with first | rest
      · exact formed.emits_run call packet first
      · exact inductionHypothesis (formed.run call) packet rest

/-- Whatever is called on an endpoint, and whatever bytes arrive, each buffer
handed to `kcp_udp_output` leaves as one `sendto` of the whole buffer. -/
theorem output_never_sliced (calls : List Call) :
    ∀ packet ∈ (runCalls createKCP calls).2,
      1 ≤ packet.length ∧ packet.length ≤ 1400 ∧
        ∀ sendto : Nat → Int, (udpSend sendto packet).2 = [packet] := by
  intro packet member
  have sound := WellFormed.createKCP.emits_runCalls calls packet member
  refine ⟨List.length_pos_iff.mpr sound.nonempty, sound.length_le, fun sendto => ?_⟩
  exact udpSend_whole sendto packet sound.nonempty (sound.length_le.trans (by decide))

/-- The calls and the packet of a first message of one byte. -/
def firstCalls : List Call := [.send [104] 1 100 110]

def firstPacket : Datagram := (runCalls createKCP firstCalls).2.headD []

theorem output_never_sliced_first :
    1 ≤ firstPacket.length ∧ firstPacket.length ≤ 1400 ∧
      (udpSend (fun _ => 25) firstPacket).2 = [firstPacket] := by
  obtain ⟨nonempty, short, whole⟩ := output_never_sliced firstCalls firstPacket (by decide)
  exact ⟨nonempty, short, whole _⟩

end KcpTest.Endpoint
