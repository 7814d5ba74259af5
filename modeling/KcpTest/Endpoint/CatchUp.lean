import KcpTest.Endpoint.Rounds

/-!
Contract: both endpoints can always catch up.

Owns: that an endpoint short of its goal gets something more acknowledged in some
run without new messages, that at the goal the other end has received everything,
and the recovery theorem for every pair of endpoints a bad network may leave.
-/

set_option autoImplicit false

namespace KcpTest.Endpoint

open KcpTest.Kcp KcpTest.Library KcpTest.Library.SlidingWindow Relation

/-! ### What is left to acknowledge -/

/-- `snd_una` counts the segments that are acknowledged: all of them exactly when
nothing waits. -/
theorem Live.sndUna_lt {pair : Pair} (live : Live pair) (busy : ¬ Idle pair.near) :
    pair.near.kcp.sndUna.toNat < pair.near.segments := by
  obtain ⟨out, inc, coupled⟩ := live.coupled
  have outbound := live.outbound coupled
  have sndUna_le := outbound.sndUna_le
  rw [coupled.segments_eq]
  by_cases waiting : pair.near.kcp.sndQueue = []
  · obtain ⟨seg, member⟩ :=
      List.exists_mem_of_ne_nil _ fun buf => busy ⟨buf, waiting⟩
    have := outbound.small seg member
    omega
  · have := List.length_pos_of_ne_nil waiting
    omega

theorem Live.sndUna_of_idle {pair : Pair} (live : Live pair) (idle : Idle pair.near) :
    pair.near.kcp.sndUna.toNat = pair.near.segments := by
  obtain ⟨out, inc, coupled⟩ := live.coupled
  have outbound := live.outbound coupled
  obtain ⟨buf, queue⟩ := idle
  have sndUna := outbound.oldest
  rw [buf] at sndUna
  rw [coupled.segments_eq, queue, sndUna]
  exact outbound.sent

theorem Live.sndUna_le {pair : Pair} (live : Live pair) :
    pair.near.kcp.sndUna.toNat ≤ pair.near.segments := by
  by_cases idle : Idle pair.near
  · exact (live.sndUna_of_idle idle).le
  · exact (live.sndUna_lt idle).le

theorem Recovers.segments {moment moment' : Moment} (run : Recovers moment moment') :
    moment'.pair.near.segments = moment.pair.near.segments := by
  rw [Peer.segments, run.kept.near.accepted]
  rfl

/-! ### One step closer -/

/-- With an open window the oldest segment goes out, arrives, and the
acknowledgement comes back. -/
theorem Live.transfers {moment : Moment} (live : Live moment.pair)
    (busy : ¬ Idle moment.pair.near) (opened : moment.pair.near.kcp.rmtWnd ≠ 0) :
    ∃ moment', Recovers moment moment' ∧
      moment.pair.near.kcp.sndUna.toNat < moment'.pair.near.kcp.sndUna.toNat := by
  -- the far end has to have room before the segment arrives
  obtain ⟨moment₁, run₁, drained, empty⟩ := live.drains
  have live₁ := Live.recovers run₁ live
  rw [← drained.near] at busy opened ⊢
  obtain ⟨later, onward, packet, emitted, segs, rfl, bundle, seg, member, push, oldest⟩ :=
    live₁.transmits busy opened moment₁.clock
  have updating := Recovery.near moment₁ (.update (UInt32.ofNat later)) later
    (.update later onward) trivial
  have live₂ := Live.recovery updating live₁
  obtain ⟨out, inc, coupled⟩ := live₂.coupled
  have outbound := live₂.outbound coupled
  have sndUna : (moment₁.pair.near.call (.update (UInt32.ofNat later))).kcp.sndUna = seg.sn :=
    (ikcpUpdate_sndUna_rmtWnd moment₁.pair.near.kcp (UInt32.ofNat later)).1.trans oldest.symm
  have onWire : segs.flatMap Segment.encode ∈
      (moment₁.pair.near.call (.update (UInt32.ofNat later))).wire :=
    List.mem_append_right _ emitted
  have arriving := Recovery.far
    ⟨later, { moment₁.pair with near := moment₁.pair.near.call (.update (UInt32.ofNat later)) }⟩
    (.input (segs.flatMap Segment.encode)) later (.input _) onWire
  have live₃ := Live.recovery arriving live₂
  have flight := outbound.flight
  rw [show _ = seg.sn from sndUna] at flight
  have received : seg.sn.toNat ≤ moment₁.pair.far.kcp.rcvNxt.toNat :=
    oldest ▸ (live₁.received_past empty).1
  have acked := coupled.acks outbound.few (live₂.swap.outbound coupled.symm).few onWire
    bundle member push (by show _ < moment₁.pair.far.kcp.rcvNxt.toNat + 2048; omega) (by omega)
  obtain ⟨moment', run, -, -, further⟩ := live₃.reply (Or.inl (List.ne_nil_of_mem acked))
  refine ⟨moment', (run₁.tail updating).tail arriving |>.trans run, ?_⟩
  have closer := further seg.ts (by
    show (_, seg.ts) ∈ _
    rw [sndUna]
    exact acked)
  rwa [show _ = seg.sn from sndUna, oldest] at closer

theorem Live.closer {moment : Moment} (live : Live moment.pair)
    (busy : ¬ Idle moment.pair.near) :
    ∃ moment', Recovers moment moment' ∧
      moment.pair.near.kcp.sndUna.toNat < moment'.pair.near.kcp.sndUna.toNat := by
  by_cases closed : moment.pair.near.kcp.rmtWnd = 0
  · obtain ⟨moment₁, run₁, answers, same⟩ := live.probes closed
    have live₁ := Live.recovers run₁ live
    obtain ⟨moment₂, run₂, opened, onward, -⟩ := live₁.reply answers
    have run := run₁.trans run₂
    rw [same] at onward
    by_cases idle : Idle moment₂.pair.near
    · have done := (Live.recovers run live).sndUna_of_idle idle
      rw [Recovers.segments run] at done
      exact ⟨moment₂, run, done ▸ live.sndUna_lt busy⟩
    · obtain ⟨moment', run', further⟩ := (Live.recovers run live).transfers idle opened
      exact ⟨moment', run.trans run', onward.trans_lt further⟩
  · exact live.transfers busy closed

/-- Some run gets everything acknowledged, and the far end drained. -/
theorem Live.settles {moment : Moment} (live : Live moment.pair) :
    ∃ moment', Recovers moment moment' ∧ Idle moment'.pair.near ∧
      ikcpPeeksize moment'.pair.far.kcp < 0 := by
  have advances : Progress.Advances Recovery (fun state => Live state.pair)
      (fun state => Idle state.pair.near)
      (fun state => state.pair.near.segments - state.pair.near.kcp.sndUna.toNat) := by
    intro state live busy
    obtain ⟨next, run, further⟩ := live.closer busy
    refine ⟨next, run, Live.recovers run live, ?_⟩
    have below := live.sndUna_lt busy
    show next.pair.near.segments - next.pair.near.kcp.sndUna.toNat <
      state.pair.near.segments - state.pair.near.kcp.sndUna.toNat
    rw [Recovers.segments run]
    omega
  obtain ⟨moment₁, run, live₁, idle⟩ := advances.reaches moment live
  obtain ⟨moment', rest, drained, empty⟩ := live₁.drains
  exact ⟨moment', run.trans rest, drained.near ▸ idle, empty⟩

/-! ### At the goal -/

/-- A queue that starts with a whole message has one to take. -/
theorem ikcpPeeksize_nonneg_of_spells {kcp : Kcpcb} {message : Bytes}
    {fragments more : List Fragment} (spells : Spells message fragments)
    (queued : kcp.rcvQueue.map Segment.fragment = fragments ++ more) : 0 ≤ ikcpPeeksize kcp := by
  obtain ⟨first, rest, rfl, counts, few⟩ := spells.head
  rw [List.cons_append] at queued
  obtain ⟨seg, tail, queue, same, others⟩ := List.map_eq_cons_iff.mp queued
  have frg : seg.frg = first.1 := congrArg Prod.fst same
  have length := congrArg List.length others
  rw [List.length_map, List.length_append] at length
  have one : (1 : UInt32).toNat = 1 := rfl
  simp only [ikcpPeeksize, queue]
  split
  · omega
  · rw [if_neg]
    · omega
    · rw [Kcpcb.nrcvQue, queue, List.length_cons, UInt32.toNat_add, frg, counts, one]
      omega

/-- With everything acknowledged a drained endpoint has received everything. -/
theorem Live.complete {pair : Pair} (live : Live pair) (idle : Idle pair.near)
    (empty : ikcpPeeksize pair.far.kcp < 0) :
    pair.far.received = pair.near.accepted.map Accepted.message := by
  obtain ⟨out, inc, coupled⟩ := live.coupled
  obtain ⟨read, later, split, received, taken⟩ := coupled.sends.received
  have untaken : out.accepted = out.taken ++ fragments later := by
    rw [coupled.sends.accepted, split, fragments_append, taken]
  have queued := coupled.farLocal.rcvQueue_prefix untaken
  have incoming := coupled.farLocal.incoming
  have total := coupled.nearLocal.outSound.taken_length_add
  have past := (live.received_past empty).1
  rw [live.sndUna_of_idle idle, incoming.rcvNxt, coupled.segments_eq,
    coupled.nearLocal.sent_add, untaken, List.length_append] at past
  -- the queue holds the fragments of all that is not taken
  have whole : pair.far.kcp.rcvQueue.map Segment.fragment = fragments later := by
    apply queued.eq_of_length_le
    rw [incoming.rcvQueue]
    omega
  cases later with
  | nil =>
      rw [received, split, List.append_nil]
  | cons entry rest =>
      have parts : fragments (entry :: rest) =
          entry.segments.map Segment.fragment ++ fragments rest := by
        simp [fragments]
      have spells := coupled.sends.spelled entry (by
        rw [split]
        exact List.mem_append_right _ List.mem_cons_self)
      have ready := ikcpPeeksize_nonneg_of_spells spells (whole.trans parts)
      omega

/-- What has been received completely stays so without new messages. -/
theorem Live.complete_kept {pair pair' : Pair} (live : Live pair') (kept : Kept pair pair')
    (complete : pair.far.received = pair.near.accepted.map Accepted.message) :
    pair'.far.received = pair'.near.accepted.map Accepted.message := by
  obtain ⟨out, inc, coupled⟩ := live.coupled
  have within := coupled.delivers.received_prefix
  apply within.eq_of_length_le
  rw [kept.near.accepted, ← complete]
  exact kept.far.received.length_le

/-! ### Recovery -/

/-- Each endpoint has received what the other got accepted, and nothing waits. -/
structure CaughtUp (pair : Pair) : Prop where
  far : pair.far.received = pair.near.accepted.map Accepted.message
  near : pair.near.received = pair.far.accepted.map Accepted.message
  idleNear : ikcpWaitsnd pair.near.kcp = 0
  idleFar : ikcpWaitsnd pair.far.kcp = 0

/-- Whatever a network that loses, duplicates, delays and reorders has left of two
endpoints, and although nothing of what is on the wire arrives any more, some run
of updates, receives and arrivals of datagrams it emits itself, at clocks from any
reading on, brings both to where they have received everything and wait for
nothing. The run is one of the pair as it is, too. -/
theorem catches_up (pair : Pair) (reachable : Reachable pair)
    (fewNear : pair.near.segments < 2 ^ 31) (fewFar : pair.far.segments < 2 ^ 31) (clock : ℕ) :
    ∃ moment, Recovers ⟨clock, pair.unheard⟩ moment ∧
      Recovers ⟨clock, pair⟩ (moment.after pair) ∧ CaughtUp (moment.after pair).pair := by
  have live : Live (Moment.mk clock pair.unheard).pair :=
    (Reachable.live reachable fewNear fewFar).unheard
  obtain ⟨moment₁, run₁, idleNear, farEmpty⟩ := live.settles
  have live₁ := Live.recovers run₁ live
  -- the other direction, which does not undo the first
  have settles : ∃ moment₂, Recovers moment₁.swap moment₂ ∧ Idle moment₂.pair.near ∧
      ikcpPeeksize moment₂.pair.far.kcp < 0 := Live.settles live₁.swap
  obtain ⟨moment₂, run₂, idleFar, nearEmpty⟩ := settles
  have live₂ := Live.recovers run₂ live₁.swap
  have kept := Recovers.kept run₂
  have run : Recovers ⟨clock, pair.unheard⟩ moment₂.swap := run₁.trans (Recovers.swap run₂)
  refine ⟨moment₂.swap, run, run.after, ?_⟩
  exact
    { far := live₂.swap.complete_kept ⟨kept.far, kept.near⟩ (live₁.complete idleNear farEmpty)
      near := live₂.complete idleFar nearEmpty
      idleNear := (ikcpWaitsnd_eq_zero_iff _).mpr (kept.far.idle idleNear)
      idleFar := (ikcpWaitsnd_eq_zero_iff _).mpr idleFar }

/-- A message of two bytes whose datagram was lost. -/
def lostMessage : Pair where
  near := Peer.start.call (.send [104, 105] 2 100 110)
  far := Peer.start

theorem catches_up_unheard :
    lostMessage.far.received = [] ∧
      ∃ moment, Recovers ⟨110, lostMessage.unheard⟩ moment ∧
        Recovers ⟨110, lostMessage⟩ (moment.after lostMessage) ∧
        CaughtUp (moment.after lostMessage).pair :=
  ⟨rfl, catches_up lostMessage
    (ReflTransGen.single (Step.near Pair.start (.send [104, 105] 2 100 110) trivial))
    (by decide) (by decide) 110⟩

end KcpTest.Endpoint
