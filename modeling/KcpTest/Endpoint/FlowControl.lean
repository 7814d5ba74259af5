import KcpTest.Endpoint.Rounds

/-!
Contract: what a datagram meets at the other end.

Owns: how far a sender is ahead of its receiver in any reachable state, and that a
receiver with room accepts, keeps and acknowledges whatever is on the wire.

A receiver whose queue is full may drop a segment beyond its window; the bound of
two windows holds there as well.
-/

set_option autoImplicit false

namespace KcpTest.Endpoint

open KcpTest.Kcp KcpTest.Library KcpTest.Library.SlidingWindow Relation

/-! ### What the receiver holds -/

/-- A segment that has been received in order, or waits for the ones before it. -/
def Keeps (kcp : Kcpcb) (seg : Segment) : Prop :=
  seg.sn.toNat < kcp.rcvNxt.toNat ∨
    ∃ kept ∈ kcp.rcvBuf, kept.sn = seg.sn ∧ kept.fragment = seg.fragment

/-- No position is held from one window behind `rcv_nxt` on. -/
theorem Live.holds_lt_window {pair : Pair} (live : Live pair) {out inc : Link Fragment}
    (coupled : Coupled pair.near pair.far out inc) {position : ℕ} (holds : out.Holds position) :
    position < pair.far.kcp.rcvNxt.toNat + 2048 := by
  have incoming := coupled.farLocal.incoming
  rcases holds with below | ⟨value, buffered⟩
  · have := incoming.rcvNxt
    omega
  · have ahead := (coupled.nearLocal.outSound.buffered (position, value) buffered).1
    rw [← incoming.rcvBuf] at buffered
    obtain ⟨seg, member, same⟩ := buffered
    have number : position = seg.sn.toNat := (Prod.mk.inj same).1
    have inside : snOffset pair.far.kcp.rcvNxt seg.sn < 2048 :=
      live.far.windowed.receiving.early.inside _ (List.mem_map_of_mem member)
    have value' : snOffset pair.far.kcp.rcvNxt seg.sn =
        (2 ^ 32 - pair.far.kcp.rcvNxt.toNat + seg.sn.toNat) % 2 ^ 32 := BitVec.toNat_sub _ _
    have rcvNxt := incoming.rcvNxt
    have snSmall := seg.sn.toNat_lt
    omega

/-- A sender is less than two windows ahead. -/
theorem Live.sent_le {pair : Pair} (live : Live pair) {out inc : Link Fragment}
    (coupled : Coupled pair.near pair.far out inc) :
    out.sent ≤ pair.far.kcp.rcvNxt.toNat + 4096 := by
  have outbound := live.outbound coupled
  have flight := outbound.flight
  by_contra further
  have last := live.holds_lt_window coupled
    (live.released coupled (pair.near.kcp.sndUna.toNat - 1) (by omega))
  omega

/-- What is on the wire are segments of the conversation. -/
theorem PacketOnWire.bundle {out inc : Link Fragment} {packet : Datagram}
    (onWire : PacketOnWire out inc packet) :
    ∃ segs : List Segment, packet = segs.flatMap Segment.encode ∧
      Bundle Endpoint.createKCP.conv segs ∧ ∀ seg ∈ segs, OnWire out inc seg := by
  obtain ⟨segs, split, all⟩ := onWire.carries
  refine ⟨segs, split, ?_, all⟩
  exact
    { nonempty := fun none' => onWire.nonempty (by rw [split, none']; rfl)
      short := split ▸ Nat.lt_of_le_of_lt onWire.length_le (by decide)
      readable := fun seg member => (all seg member).toReadable
      conv := fun seg member => (all seg member).conv }

/-! ### Arrivals -/

/-- What is acknowledged is kept. -/
theorem Coupled.keeps {near far : Peer} {out inc : Link Fragment}
    (coupled : Coupled near far out inc) {seg : Segment} {ts : UInt32}
    (acked : (seg.sn, ts) ∈ far.kcp.acklist)
    (accepted : (fragments near.accepted)[seg.sn.toNat]? = some seg.fragment) :
    Keeps far.kcp seg := by
  have incoming := coupled.farLocal.incoming
  rcases incoming.acklist _ acked with below | ⟨value, buffered⟩
  · exact Or.inl (incoming.rcvNxt ▸ below)
  · have content := (coupled.nearLocal.outSound.buffered _ buffered).2.2
    rw [coupled.sends.accepted, accepted] at content
    rw [← incoming.rcvBuf] at buffered
    obtain ⟨kept, member, same⟩ := buffered
    obtain ⟨number, fragment⟩ := Prod.mk.inj same
    exact Or.inr ⟨kept, member, UInt32.toNat_inj.mp number.symm,
      fragment.symm.trans (Option.some.inj content).symm⟩

/-- Two messages on the wire, none of them heard. -/
def unordered : Pair where
  near := (Peer.start.call (.send [104, 105] 2 100 110)).call (.send [106] 1 110 120)
  far := Peer.start

end KcpTest.Endpoint
