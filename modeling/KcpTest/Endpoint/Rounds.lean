import KcpTest.Kcp.Answer
import KcpTest.Endpoint.Recovery
import KcpTest.Endpoint.Loop

/-!
Contract: one round of retransmission and acknowledgement.

Owns: that an endpoint can be drained of complete messages, what a drained
endpoint has received, that an endpoint with something unacknowledged transmits
the oldest of it or asks for the window, that the other end then answers, and
that the answer moves the sender on.
-/

set_option autoImplicit false

namespace KcpTest.Endpoint

open KcpTest.Kcp KcpTest.Library KcpTest.Library.SlidingWindow Relation

/-! ### Draining -/

/-- The message a receive would return is one the peer got accepted. -/
theorem Coupled.next_message {near far : Peer} {out inc : Link Fragment}
    (coupled : Coupled near far out inc) (ready : 0 ≤ ikcpPeeksize far.kcp) :
    ∃ entry ∈ near.accepted, (mergeFragments far.kcp.rcvQueue).1 = entry.message := by
  obtain ⟨read, later, split, -, taken⟩ := coupled.sends.received
  have untaken : out.accepted = out.taken ++ fragments later := by
    rw [coupled.sends.accepted, split, fragments_append, taken]
  have queued := coupled.farLocal.rcvQueue_prefix untaken
  cases later with
  | nil =>
      have empty : far.kcp.rcvQueue = [] := by simpa [fragments] using queued
      exact absurd empty (ikcpPeeksize_of_nonneg ready).1
  | cons entry rest =>
      have member : entry ∈ near.accepted := by
        rw [split]
        exact List.mem_append_right _ List.mem_cons_self
      have spells := coupled.sends.spelled entry member
      have parts : fragments (entry :: rest) =
          entry.segments.map Segment.fragment ++ fragments rest := by
        simp [fragments]
      rw [parts] at queued
      have enough := length_le_of_peeksize ready spells queued
      have whole : entry.segments.map Segment.fragment <+:
          far.kcp.rcvQueue.map Segment.fragment :=
        List.prefix_of_prefix_length_le (List.prefix_append _ _) queued (by simpa using enough)
      obtain ⟨more, whole⟩ := whole
      exact ⟨entry, member, (mergeFragments_spells spells whole.symm).1⟩

/-- A receive with the largest buffer takes a message, when there is one. -/
theorem Live.recv_shrinks {pair : Pair} (live : Live pair)
    (ready : 0 ≤ ikcpPeeksize pair.far.kcp) :
    backlog (ikcpRecv pair.far.kcp 0x7fffffff).kcp < backlog pair.far.kcp := by
  obtain ⟨out, inc, coupled⟩ := live.coupled
  obtain ⟨entry, accepted, same⟩ := coupled.next_message ready
  have short := live.shortNear entry accepted
  have peek : ikcpPeeksize pair.far.kcp = entry.message.length := by
    rw [(ikcpPeeksize_of_nonneg ready).2, ← mergeFragments_length, same]
  have largest : (0x7fffffff : Int32).toInt = 0x7fffffff := by decide
  have fewer := backlog_afterTake ready
  rcases ikcpRecv_cases pair.far.kcp 0x7fffffff with
    ⟨-, -, narrow⟩ | ⟨-, -, -, -, probe, result⟩
  · have := narrow ready
    omega
  · rw [result, if_neg (by rw [largest]; decide)]
    exact fewer

/-- What draining an endpoint leaves alone, and what it is for. -/
structure Drained (before after : Moment) : Prop where
  near : after.pair.near = before.pair.near
  acklist : after.pair.far.kcp.acklist = before.pair.far.kcp.acklist
  answers : Answers before.pair.far.kcp → Answers after.pair.far.kcp

theorem Live.drains {moment : Moment} (live : Live moment.pair) :
    ∃ moment', Recovers moment moment' ∧ Drained moment moment' ∧
      ikcpPeeksize moment'.pair.far.kcp < 0 := by
  have advances : Progress.Advances Recovery
      (fun state => Live state.pair ∧ Drained moment state)
      (fun state => ikcpPeeksize state.pair.far.kcp < 0)
      (fun state => backlog state.pair.far.kcp) := by
    rintro state ⟨live, near, acklist, answers⟩ ready
    have recovery := Recovery.far state (.recv 0x7fffffff) state.clock (.recv _)
      (by decide : (0 : Int) ≤ (0x7fffffff : Int32).toInt)
    obtain ⟨acks, kept⟩ := ikcpRecv_keeps_answers state.pair.far.kcp 0x7fffffff
    exact ⟨_, ReflTransGen.single recovery,
      ⟨Live.recovery recovery live, near, acks.trans acklist, kept ∘ answers⟩,
      live.recv_shrinks (not_lt.mp ready)⟩
  obtain ⟨moment', run, ⟨-, drained⟩, empty⟩ :=
    advances.reaches moment ⟨live, rfl, rfl, id⟩
  exact ⟨moment', run, drained, empty⟩

/-! ### Plain numbers -/

section Plain

variable {kcp : Kcpcb} {limit : Nat} (window : SendWindow limit kcp) (narrow : limit < 2 ^ 30)
  (small : ∀ seg ∈ kcp.sndBuf, seg.sn.toNat < 2 ^ 31) (unaSmall : kcp.sndUna.toNat < 2 ^ 31)
include window narrow small unaSmall

/-- Below `2 ^ 31` a number in `snd_buf` is `snd_una` and its offset. -/
theorem sn_eq_of_window : ∀ seg ∈ kcp.sndBuf,
    seg.sn.toNat = kcp.sndUna.toNat + snOffset kcp.sndUna seg.sn := by
  intro seg member
  have inside : snOffset kcp.sndUna seg.sn < kcp.flight :=
    window.inFlight.inside _ (List.mem_map_of_mem member)
  have flight := window.flight_le
  have snSmall := small seg member
  have value : snOffset kcp.sndUna seg.sn =
      (2 ^ 32 - kcp.sndUna.toNat + seg.sn.toNat) % 2 ^ 32 := BitVec.toNat_sub _ _
  rw [value] at inside ⊢
  omega

theorem sndUna_le_of_window : ∀ seg ∈ kcp.sndBuf, kcp.sndUna.toNat ≤ seg.sn.toNat := by
  intro seg member
  have := sn_eq_of_window window narrow small unaSmall seg member
  omega

theorem ascending_of_window : Ascending kcp.sndBuf := by
  have ordered := window.inFlight.ordered
  rw [numbers, List.pairwise_map] at ordered
  refine ordered.imp_of_mem fun {first second} inFirst inSecond less => ?_
  have firstEq := sn_eq_of_window window narrow small unaSmall first inFirst
  have secondEq := sn_eq_of_window window narrow small unaSmall second inSecond
  have offsets : snOffset kcp.sndUna first.sn < snOffset kcp.sndUna second.sn := less
  omega

end Plain

/-- The sending side of a live pair, in plain numbers. -/
structure Outbound (peer : Peer) (out : Link Fragment) : Prop where
  sent : peer.kcp.sndNxt.toNat = out.sent
  few : out.sent < 2 ^ 31
  sndUna_le : peer.kcp.sndUna.toNat ≤ out.sent
  flight : out.sent ≤ peer.kcp.sndUna.toNat + 2048
  small : ∀ seg ∈ peer.kcp.sndBuf, peer.kcp.sndUna.toNat ≤ seg.sn.toNat ∧ seg.sn.toNat < out.sent
  ascending : Ascending peer.kcp.sndBuf
  oldest : peer.kcp.sndUna = oldest peer.kcp.sndNxt peer.kcp.sndBuf

theorem Live.outbound {pair : Pair} (live : Live pair) {out inc : Link Fragment}
    (coupled : Coupled pair.near pair.far out inc) : Outbound pair.near out := by
  have window := live.near.windowed.sending
  have sent := coupled.nearLocal.outgoing.sndNxt
  have few : out.sent < 2 ^ 31 := by
    rw [← coupled.sent_eq]
    exact Nat.lt_of_le_of_lt (Nat.sub_le _ _) live.fewNear
  have below : ∀ seg ∈ pair.near.kcp.sndBuf, seg.sn.toNat < out.sent := fun seg member =>
    (coupled.nearLocal.outSound.unacked (seg.sn.toNat, seg.fragment)
      (coupled.nearLocal.outgoing.sndBuf ▸ ⟨seg, member, rfl⟩)).1
  have sndUna_le : pair.near.kcp.sndUna.toNat ≤ out.sent := by
    rw [window.sndUna]
    cases buf : pair.near.kcp.sndBuf with
    | nil => exact sent.le
    | cons head rest => exact (below head (by rw [buf]; exact List.mem_cons_self)).le
  have narrow : 2048 < 2 ^ 30 := by decide
  have small : ∀ seg ∈ pair.near.kcp.sndBuf, seg.sn.toNat < 2 ^ 31 := fun seg member =>
    (below seg member).trans few
  have unaSmall : pair.near.kcp.sndUna.toNat < 2 ^ 31 := by omega
  exact
    { sent := sent
      few := few
      sndUna_le := sndUna_le
      flight := by
        have flight := window.flight_le
        have value : pair.near.kcp.flight =
            (2 ^ 32 - pair.near.kcp.sndUna.toNat + pair.near.kcp.sndNxt.toNat) % 2 ^ 32 :=
          BitVec.toNat_sub _ _
        omega
      small := fun seg member =>
        ⟨sndUna_le_of_window window narrow small unaSmall seg member, below seg member⟩
      ascending := ascending_of_window window narrow small unaSmall
      oldest := window.sndUna }

/-- What was accepted was sent or waits in `snd_queue`. -/
theorem Coupled.segments_eq {near far : Peer} {out inc : Link Fragment}
    (coupled : Coupled near far out inc) :
    near.segments = out.sent + near.kcp.sndQueue.length := by
  have total := coupled.nearLocal.sent_add
  have length := congrArg List.length coupled.sends.accepted
  rw [fragments, List.length_map] at length
  rw [total, length]
  rfl

/-! ### What a drained endpoint has received -/

/-- Without a complete message the queue holds part of one. -/
theorem Coupled.queue_lt {near far : Peer} {out inc : Link Fragment}
    (coupled : Coupled near far out inc) (empty : ikcpPeeksize far.kcp < 0) :
    far.kcp.rcvQueue.length < 128 := by
  obtain ⟨read, later, split, -, taken⟩ := coupled.sends.received
  have untaken : out.accepted = out.taken ++ fragments later := by
    rw [coupled.sends.accepted, split, fragments_append, taken]
  have queued := coupled.farLocal.rcvQueue_prefix untaken
  cases queue : far.kcp.rcvQueue with
  | nil => simp
  | cons seg rest =>
      have inLater : seg.fragment ∈ fragments later := by
        apply queued.subset
        rw [queue]
        exact List.mem_cons_self
      obtain ⟨source, inSegments, same⟩ := List.mem_map.mp inLater
      obtain ⟨entry, inEntries, inEntry⟩ := List.mem_flatMap.mp inSegments
      have spells := coupled.sends.spelled entry (by
        rw [split]
        exact List.mem_append_right _ inEntries)
      have frg : seg.frg.toNat < 128 := by
        have := spells.numbers_small source.fragment (List.mem_map_of_mem inEntry)
        rw [same] at this
        exact this
      have one : (1 : UInt32).toNat = 1 := rfl
      simp only [ikcpPeeksize, queue] at empty
      split at empty
      · omega
      · split at empty
        · rename_i incomplete
          rw [Kcpcb.nrcvQue, queue, UInt32.toNat_add, one] at incomplete
          omega
        · omega

/-- A settled receiver with room in its queue does not hold the next position. -/
theorem Live.not_holds_next {pair : Pair} (live : Live pair) {out inc : Link Fragment}
    (coupled : Coupled pair.near pair.far out inc) (room : pair.far.kcp.rcvQueue.length < 2048) :
    ¬ out.Holds out.next := by
  rintro (below | ⟨value, buffered⟩)
  · exact absurd below (Nat.lt_irrefl _)
  · have incoming := coupled.farLocal.incoming
    have sound := coupled.nearLocal.outSound
    have rcvWnd : pair.far.kcp.rcvWnd.toNat = 2048 := by
      show pair.far.kcp.config.rcvWnd.toNat = 2048
      rw [live.far.formed.config]
      rfl
    rw [← incoming.rcvBuf] at buffered
    obtain ⟨seg, member, same⟩ := buffered
    have number : seg.sn.toNat = out.next := (Prod.mk.inj same).1.symm
    cases buf : pair.far.kcp.rcvBuf with
    | nil =>
        rw [buf] at member
        exact absurd member List.not_mem_nil
    | cons head rest =>
        -- the head is not behind the next position, and not ahead of `seg`
        have ahead : out.next ≤ head.sn.toNat := by
          refine (sound.buffered (head.sn.toNat, head.fragment) ?_).1
          rw [← incoming.rcvBuf, buf]
          exact ⟨head, List.mem_cons_self, rfl⟩
        have ascending := incoming.ascending
        rw [buf] at ascending member
        have first : head.sn.toNat = out.next := by
          rcases List.mem_cons.mp member with rfl | later
          · exact number
          · have := (List.pairwise_cons.mp ascending).1 seg later
            omega
        have full := live.far.settled head rest buf
          (UInt32.toNat_inj.mp (first.trans incoming.rcvNxt.symm))
        omega

/-- What counts as acknowledged is held at the other end. -/
theorem Live.released {pair : Pair} (live : Live pair) {out inc : Link Fragment}
    (coupled : Coupled pair.near pair.far out inc) :
    ∀ position < pair.near.kcp.sndUna.toNat, out.Holds position := by
  intro position below
  have outbound := live.outbound coupled
  refine (coupled.nearLocal.outSound.retained position
    (below.trans_le outbound.sndUna_le)).resolve_left ?_
  rintro ⟨value, kept⟩
  rw [← coupled.nearLocal.outgoing.sndBuf] at kept
  obtain ⟨seg, member, same⟩ := kept
  have := (outbound.small seg member).1
  have : position = seg.sn.toNat := (Prod.mk.inj same).1
  omega

/-- With room in its queue, an endpoint has everything the other one counts as
acknowledged in order. -/
theorem Live.sndUna_le_rcvNxt {pair : Pair} (live : Live pair) {out inc : Link Fragment}
    (coupled : Coupled pair.near pair.far out inc) (room : pair.far.kcp.rcvQueue.length < 2048) :
    pair.near.kcp.sndUna.toNat ≤ pair.far.kcp.rcvNxt.toNat := by
  have missing := live.not_holds_next coupled room
  rw [coupled.farLocal.incoming.rcvNxt]
  by_contra behind
  exact missing (live.released coupled out.next (by omega))

/-- A drained endpoint has everything the other one counts as acknowledged, and
more when it acknowledges the oldest segment. -/
theorem Live.received_past {pair : Pair} (live : Live pair)
    (empty : ikcpPeeksize pair.far.kcp < 0) :
    pair.near.kcp.sndUna.toNat ≤ pair.far.kcp.rcvNxt.toNat ∧
      ∀ ts, (pair.near.kcp.sndUna, ts) ∈ pair.far.kcp.acklist →
        pair.near.kcp.sndUna.toNat < pair.far.kcp.rcvNxt.toNat := by
  obtain ⟨out, inc, coupled⟩ := live.coupled
  have room : pair.far.kcp.rcvQueue.length < 2048 :=
    (coupled.queue_lt empty).trans (by decide)
  have reached := live.sndUna_le_rcvNxt coupled room
  refine ⟨reached, fun ts acked => ?_⟩
  have holds := coupled.farLocal.incoming.acklist _ acked
  rcases Nat.lt_or_eq_of_le reached with less | same
  · exact less
  · have missing := live.not_holds_next coupled room
    rw [← coupled.farLocal.incoming.rcvNxt, ← same] at missing
    exact absurd holds missing

/-! ### Datagrams of an update -/

theorem exists_clock (clock : ℕ) (value : UInt32) :
    ∃ later, clock ≤ later ∧ UInt32.ofNat later = value := by
  refine ⟨value.toNat + 2 ^ 32 * clock, by omega, ?_⟩
  rw [← UInt32.toNat_inj, UInt32.toNat_ofNat']
  have := value.toNat_lt
  omega

/-- A flush that comes puts each of its segments into a datagram of the
conversation that tells what was received and how much room is left. -/
theorem WellFormed.emits_flushed {kcp : Kcpcb} (formed : WellFormed kcp) {current : UInt32}
    (due : kcp.updated = 0 ∨ FlushDue kcp current) :
    ∃ updated tsFlush, ∀ seg ∈
      flushed { kcp with current := current, updated := updated, tsFlush := tsFlush },
      ∃ packet ∈ (ikcpUpdate kcp current).2, ∃ segs : List Segment,
        packet = segs.flatMap Segment.encode ∧ seg ∈ segs ∧
          Bundle Endpoint.createKCP.conv segs ∧ ∀ other ∈ segs, Announces kcp other := by
  obtain ⟨updated, tsFlush, busy, flushing⟩ := ikcpUpdate_flushes due
  have after := formed.update current
  rw [flushing] at after
  refine ⟨updated, tsFlush, fun seg member => ?_⟩
  rw [flushing]
  generalize block : ({ kcp with current := current, updated := updated, tsFlush := tsFlush } :
    Kcpcb) = kcp' at *
  have announces : ∀ other, Announces kcp' other → Announces kcp other := by
    rintro other ⟨una, wnd⟩
    rw [← block] at una wnd
    exact ⟨una, wnd⟩
  have formed' : WellFormed kcp' := block ▸ { formed with }
  obtain ⟨packet, emitted, segs, rfl, inside, all⟩ := flushed_carried (block ▸ busy) member
  have sendable : ∀ other ∈ segs, Sendable other := fun other inSegs =>
    formed'.sendable after.buf (flushed_emitted_after (block ▸ busy) (all other inSegs))
  have output : OutputBuffer (segs.flatMap Segment.encode) := by
    have outputs := formed.emits_update current
    rw [flushing] at outputs
    exact outputs _ emitted
  refine ⟨_, emitted, segs, rfl, inside, ?_, fun other inSegs =>
    announces other (flushed_announces (all other inSegs))⟩
  exact
    { nonempty := List.ne_nil_of_mem inside
      short := Nat.lt_of_le_of_lt output.length_le (by decide)
      readable := fun other inSegs => (sendable other inSegs).toReadable
      conv := fun other inSegs => (sendable other inSegs).conv }

/-- A probe of the window reaches the other end. -/
theorem Live.probes {moment : Moment} (live : Live moment.pair)
    (closed : moment.pair.near.kcp.rmtWnd = 0) :
    ∃ moment', Recovers moment moment' ∧ Answers moment'.pair.far.kcp ∧
      moment'.pair.near.kcp.sndUna = moment.pair.near.kcp.sndUna := by
  -- the first flush with the window closed only starts the timer
  have started : ∃ moment₁, Recovers moment moment₁ ∧ moment₁.pair.near.kcp.probeWait ≠ 0 ∧
      moment₁.pair.near.kcp.rmtWnd = 0 ∧
      moment₁.pair.near.kcp.sndUna = moment.pair.near.kcp.sndUna := by
    by_cases stopped : moment.pair.near.kcp.probeWait = 0
    · obtain ⟨later, onward, clock⟩ := exists_clock moment.clock moment.pair.near.kcp.tsFlush
      have due : FlushDue moment.pair.near.kcp (UInt32.ofNat later) := by
        rw [clock]
        exact Or.inl (itimediff_self _).symm.le
      obtain ⟨updated, tsFlush, busy, flushing⟩ := ikcpUpdate_flushes (Or.inr due)
      obtain ⟨sndUna, rmtWnd⟩ :=
        ikcpUpdate_sndUna_rmtWnd moment.pair.near.kcp (UInt32.ofNat later)
      have recovery := Recovery.near moment (.update (UInt32.ofNat later)) later
        (.update later onward) trivial
      refine ⟨_, ReflTransGen.single recovery, ?_, rmtWnd.trans closed, sndUna⟩
      show (ikcpUpdate moment.pair.near.kcp (UInt32.ofNat later)).1.probeWait ≠ 0
      rw [flushing]
      exact ikcpFlush_probeWait busy closed stopped
    · exact ⟨moment, ReflTransGen.refl, stopped, closed, rfl⟩
  obtain ⟨moment₁, run₁, started, closed₁, same₁⟩ := started
  have live₁ := Live.recovers run₁ live
  obtain ⟨current, due, expired⟩ :=
    exists_expired moment₁.pair.near.kcp moment₁.pair.near.kcp.tsProbe
  obtain ⟨later, onward, rfl⟩ := exists_clock moment₁.clock current
  obtain ⟨updated, tsFlush, emits⟩ := live₁.near.formed.emits_flushed (Or.inr due)
  obtain ⟨seg, member, asks⟩ := @flushed_asks
    { moment₁.pair.near.kcp with
      current := UInt32.ofNat later, updated := updated, tsFlush := tsFlush }
    closed₁ started expired
  obtain ⟨packet, emitted, segs, rfl, inside, bundle, -⟩ := emits seg member
  have updating := Recovery.near moment₁ (.update (UInt32.ofNat later)) later
    (.update later onward) trivial
  have arriving := Recovery.far
    ⟨later, { moment₁.pair with near := moment₁.pair.near.call (.update (UInt32.ofNat later)) }⟩
    (.input (segs.flatMap Segment.encode)) later (.input _)
    (List.mem_append_right _ emitted)
  refine ⟨_, (run₁.tail updating).tail arriving, ?_, ?_⟩
  · rw [← live₁.far.formed.conv] at bundle
    exact bundle.asked inside asks
  · exact (ikcpUpdate_sndUna_rmtWnd _ _).1.trans same₁

/-! ### The answer -/

/-- A drained endpoint has a window to announce. -/
theorem Live.wndUnused {pair : Pair} (live : Live pair)
    (empty : ikcpPeeksize pair.far.kcp < 0) :
    0 < (ikcpWndUnused pair.far.kcp).toNat ∧ (ikcpWndUnused pair.far.kcp).toNat < 2 ^ 16 := by
  obtain ⟨out, inc, coupled⟩ := live.coupled
  have room := coupled.queue_lt empty
  have rcvWnd : pair.far.kcp.rcvWnd.toNat = 2048 := by
    show pair.far.kcp.config.rcvWnd.toNat = 2048
    rw [live.far.formed.config]
    rfl
  have count : (UInt32.ofNat pair.far.kcp.nrcvQue).toNat = pair.far.kcp.rcvQueue.length := by
    rw [UInt32.toNat_ofNat', Kcpcb.nrcvQue]
    omega
  have queue : pair.far.kcp.nrcvQue = pair.far.kcp.rcvQueue.length := rfl
  rw [ikcpWndUnused, if_pos (by omega), UInt32.toNat_sub_of_le, rcvWnd, count]
  · omega
  · rw [UInt32.le_iff_toNat_le, rcvWnd, count]
    omega

/-- A datagram that announces what a drained endpoint has received. -/
theorem Live.answered {pair : Pair} (live : Live pair)
    (empty : ikcpPeeksize pair.far.kcp < 0) {segs : List Segment}
    (bundle : Bundle Endpoint.createKCP.conv segs)
    (announces : ∀ seg ∈ segs, Announces pair.far.kcp seg) :
    (ikcpInput pair.near.kcp (segs.flatMap Segment.encode)).2.rmtWnd ≠ 0 ∧
      pair.far.kcp.rcvNxt.toNat ≤
        (ikcpInput pair.near.kcp (segs.flatMap Segment.encode)).2.sndUna.toNat := by
  obtain ⟨out, inc, coupled⟩ := live.coupled
  have outbound := live.outbound coupled
  have rcvNxt_le := coupled.farLocal.incoming.rcvNxt_le coupled.nearLocal.outSound
  have few := outbound.few
  obtain ⟨pos, narrow⟩ := live.wndUnused empty
  rw [← live.near.formed.conv] at bundle
  obtain ⟨rmtWnd, above⟩ := bundle.announced
    (fun seg member => ⟨(announces seg member).una, (announces seg member).wnd⟩) (by omega) narrow
    (fun seg member => (outbound.small seg member).2.trans few) outbound.ascending
  constructor
  · rw [rmtWnd]
    intro none'
    rw [none'] at pos
    exact absurd pos (by decide)
  · have window := (live.near.run (.input (segs.flatMap Segment.encode))).windowed.sending.sndUna
    have sndNxt := (ikcpInput_keepsOutbound pair.near.kcp (segs.flatMap Segment.encode)).sndNxt
    rw [Call.run] at window
    generalize (ikcpInput pair.near.kcp (segs.flatMap Segment.encode)).2 = after at *
    rw [window]
    cases buf : after.sndBuf with
    | nil =>
        show _ ≤ after.sndNxt.toNat
        rw [sndNxt, outbound.sent]
        exact rcvNxt_le
    | cons head rest => exact above head (by rw [buf]; exact List.mem_cons_self)

/-- The far end answers, and the answer opens the window and does not take the
near end back; it moves on when its oldest segment is acknowledged. -/
theorem Live.reply {moment : Moment} (live : Live moment.pair)
    (answers : Answers moment.pair.far.kcp) :
    ∃ moment', Recovers moment moment' ∧ moment'.pair.near.kcp.rmtWnd ≠ 0 ∧
      moment.pair.near.kcp.sndUna.toNat ≤ moment'.pair.near.kcp.sndUna.toNat ∧
      ∀ ts, (moment.pair.near.kcp.sndUna, ts) ∈ moment.pair.far.kcp.acklist →
        moment.pair.near.kcp.sndUna.toNat < moment'.pair.near.kcp.sndUna.toNat := by
  obtain ⟨moment₁, run₁, drained, empty⟩ := live.drains
  have live₁ := Live.recovers run₁ live
  obtain ⟨later, onward, clock⟩ := exists_clock moment₁.clock moment₁.pair.far.kcp.tsFlush
  have due : FlushDue moment₁.pair.far.kcp (UInt32.ofNat later) := by
    rw [clock]
    exact Or.inl (itimediff_self _).symm.le
  obtain ⟨updated, tsFlush, emits⟩ := live₁.far.formed.emits_flushed (Or.inr due)
  have pending : Answers { moment₁.pair.far.kcp with
      current := UInt32.ofNat later, updated := updated, tsFlush := tsFlush } :=
    drained.answers answers
  obtain ⟨seg, member⟩ := pending.flushed
  obtain ⟨packet, emitted, segs, rfl, inside, bundle, announces⟩ := emits seg member
  have updating := Recovery.far moment₁ (.update (UInt32.ofNat later)) later
    (.update later onward) trivial
  have arriving := Recovery.near
    ⟨later, { moment₁.pair with far := moment₁.pair.far.call (.update (UInt32.ofNat later)) }⟩
    (.input (segs.flatMap Segment.encode)) later (.input _)
    (List.mem_append_right _ emitted)
  obtain ⟨rmtWnd, reached⟩ := live₁.answered empty bundle announces
  obtain ⟨past, acked⟩ := live₁.received_past empty
  rw [drained.near, drained.acklist] at acked
  rw [drained.near] at past
  exact ⟨_, (run₁.tail updating).tail arriving, rmtWnd, past.trans reached,
    fun ts inList => (acked ts inList).trans_le reached⟩

/-! ### Data -/

/-- An endpoint with something unacknowledged and an open window transmits the
oldest of it at some clock to come. -/
theorem Live.transmits {pair : Pair} (live : Live pair) (busy : ¬ Idle pair.near)
    (opened : pair.near.kcp.rmtWnd ≠ 0) (clock : ℕ) :
    ∃ later, clock ≤ later ∧ ∃ packet ∈ (ikcpUpdate pair.near.kcp (UInt32.ofNat later)).2,
      ∃ segs : List Segment, packet = segs.flatMap Segment.encode ∧
        Bundle Endpoint.createKCP.conv segs ∧
        ∃ seg ∈ segs, seg.cmd = ikcpCmdPush ∧ seg.sn = pair.near.kcp.sndUna := by
  have window := live.near.windowed.sending
  cases buf : pair.near.kcp.sndBuf with
  | cons head rest =>
      obtain ⟨current, due, expired⟩ := exists_expired pair.near.kcp head.resendts
      obtain ⟨later, onward, rfl⟩ := exists_clock clock current
      obtain ⟨updated, tsFlush, emits⟩ := live.near.formed.emits_flushed (Or.inr due)
      obtain ⟨seg, member, core⟩ := @flushed_oldest
        { pair.near.kcp with
          current := UInt32.ofNat later, updated := updated, tsFlush := tsFlush }
        head rest buf (Or.inr expired)
      obtain ⟨packet, emitted, segs, shape, inside, bundle, -⟩ := emits seg member
      have cmd : seg.cmd = head.cmd := (congrArg Segment.cmd core :)
      have sn : seg.sn = head.sn := (congrArg Segment.sn core :)
      have inBuf : head ∈ pair.near.kcp.sndBuf := by
        rw [buf]
        exact List.mem_cons_self
      have oldest' := window.sndUna
      rw [buf] at oldest'
      exact ⟨later, onward, packet, emitted, segs, shape, bundle, seg, inside,
        cmd.trans (live.near.formed.buf head inBuf).2.1, sn.trans oldest'.symm⟩
  | nil =>
      cases queue : pair.near.kcp.sndQueue with
      | nil => exact absurd ⟨buf, queue⟩ busy
      | cons newseg rest =>
          obtain ⟨later, onward, same⟩ := exists_clock clock pair.near.kcp.tsFlush
          have due : FlushDue pair.near.kcp (UInt32.ofNat later) := by
            rw [same]
            exact Or.inl (itimediff_self _).symm.le
          have sndUna := window.sndUna
          rw [buf] at sndUna
          have nocwnd : pair.near.kcp.nocwnd = Endpoint.createKCP.nocwnd :=
            (congrArg Config.nocwnd live.near.formed.config :)
          have sndWnd : pair.near.kcp.sndWnd = 2048 :=
            (congrArg Config.sndWnd live.near.formed.config :)
          have width : 0 < (imin pair.near.kcp.sndWnd pair.near.kcp.rmtWnd).toNat ∧
              (imin pair.near.kcp.sndWnd pair.near.kcp.rmtWnd).toNat < 2 ^ 31 := by
            have pos : 0 < pair.near.kcp.rmtWnd.toNat := by
              rw [Nat.pos_iff_ne_zero]
              exact fun none' => opened (UInt32.toNat_inj.mp none')
            have wide : (2048 : UInt32).toNat = 2048 := rfl
            rw [sndWnd]
            unfold imin
            split
            · omega
            · rename_i larger
              have := UInt32.le_iff_toNat_le.not.mp larger
              omega
          obtain ⟨updated, tsFlush, emits⟩ := live.near.formed.emits_flushed (Or.inr due)
          obtain ⟨seg, member, cmd, sn⟩ := @flushed_waiting
            { pair.near.kcp with
              current := UInt32.ofNat later, updated := updated, tsFlush := tsFlush }
            newseg rest buf queue (by rw [nocwnd]; decide) sndUna width
          obtain ⟨packet, emitted, segs, shape, inside, bundle, -⟩ := emits seg member
          exact ⟨later, onward, packet, emitted, segs, shape, bundle, seg, inside, cmd,
            sn.trans sndUna.symm⟩

/-- A data segment inside the window is acknowledged, whatever else is in its
datagram. -/
theorem Coupled.acks {near far : Peer} {out inc : Link Fragment}
    (coupled : Coupled near far out inc) (fewOut : out.sent < 2 ^ 31) (fewInc : inc.sent < 2 ^ 31)
    {segs : List Segment} (onWire : segs.flatMap Segment.encode ∈ near.wire)
    (bundle : Bundle Endpoint.createKCP.conv segs) {seg : Segment} (member : seg ∈ segs)
    (push : seg.cmd = ikcpCmdPush) (inside : seg.sn.toNat < far.kcp.rcvNxt.toNat + 2048)
    (close : out.sent + 2048 ≤ seg.sn.toNat + 2 ^ 31) :
    (seg.sn, seg.ts) ∈ (ikcpInput far.kcp (segs.flatMap Segment.encode)).2.acklist := by
  have formed := coupled.farLocal.formed
  -- the segments the wire is known to carry are these
  obtain ⟨sent, split, all⟩ := (coupled.nearWire _ onWire).carries
  have frames := frames_eq_of_encode_eq bundle.readable bundle.conv
    (fun other inSent => (all other inSent).toReadable)
    (fun other inSent => (all other inSent).conv) split.symm
  have inFrames : seg.frame ∈ sent.map Segment.frame := by
    rw [frames]
    exact List.mem_map_of_mem member
  obtain ⟨twin, inSent, same⟩ := List.mem_map.mp inFrames
  have header : twin.header = seg.header := congrArg Frame.header same
  have sn : twin.sn = seg.sn := congrArg Header.sn header
  have ts : twin.ts = seg.ts := congrArg Header.ts header
  have isPush : twin.header.cmd.toUInt32 = ikcpCmdPush := by
    rw [header, (bundle.readable seg member).cmd, push]
  have twinPush : twin.cmd = ikcpCmdPush := (all twin inSent).cmd.symm.trans isPush
  have below : seg.sn.toNat < out.sent :=
    sn ▸ (coupled.nearLocal.outSound.packets _ ((all twin inSent).push twinPush)).1
  have sentBundle : Bundle far.kcp.conv sent :=
    { nonempty := List.ne_nil_of_mem inSent
      short := split ▸ bundle.short
      readable := fun other inside => (all other inside).toReadable
      conv := fun other inside => (all other inside).conv.trans formed.conv.symm }
  obtain ⟨-, acklist, -, -⟩ := finishInput_eq far.kcp (inputSegments (startInput far.kcp) sent)
  rw [split, sentBundle.input, acklist]
  obtain ⟨front, back, rfl⟩ := List.append_of_mem inSent
  have start : Local (startInput far.kcp).kcp inc out := coupled.farLocal
  obtain ⟨inc', out', moves, before, -, -⟩ := start.segments
    (fun other inFront => all other (List.mem_append_left _ inFront)) fewInc fewOut
  have onward := next_le_of_run moves.receives
  have rcvNxt := before.incoming.rcvNxt
  have sentSame := (SameSender.of_run moves.receives).sent
  have next_le := before.incSound.next_le
  have start' := coupled.farLocal.incoming.rcvNxt
  have parts : inputSegments (startInput far.kcp) (front ++ twin :: back) =
      inputSegments (inputSegment (inputSegments (startInput far.kcp) front) twin.header twin.data)
        back := by
    rw [inputSegments, List.foldl_append, List.foldl_cons]
    rfl
  rw [parts]
  generalize inputSegments (startInput far.kcp) front = st at before rcvNxt ⊢
  have rcvWnd : st.kcp.rcvWnd = 2048 := (congrArg Config.rcvWnd before.formed.config :)
  have inWindow : itimediff twin.header.sn (st.kcp.rcvNxt + st.kcp.rcvWnd) < 0 := by
    have wide : (2048 : UInt32).toNat = 2048 := rfl
    have distance : itimediff seg.sn st.kcp.rcvNxt =
        (seg.sn.toNat : Int) - st.kcp.rcvNxt.toNat := itimediff_of_small (by omega) (by omega)
    show itimediff twin.sn _ < 0
    rw [sn, rcvWnd, itimediff_add (by omega) (by omega)]
    omega
  apply (inputSegments_keeps_answers _ back).1.subset
  rw [(inputSegment_effect st twin.header twin.data).acklist, receiveSegment, if_pos isPush,
    inputPush_acklist, if_pos inWindow, ← sn, ← ts]
  exact List.mem_append_right _ (List.mem_singleton_self _)

end KcpTest.Endpoint
