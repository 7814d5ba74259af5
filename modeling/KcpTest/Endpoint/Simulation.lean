import KcpTest.Endpoint.Exchange
import KcpTest.Library.SlidingWindow

/-!
Contract: the two halves of a control block simulate the two sides of a
sliding-window link.

Owns: the relation of each half to a link of fragments, and for every KCP
operation the steps of the link that it is.

A link counts positions without bound, KCP numbers segments modulo `2 ^ 32`. The
relations tie the two together below `2 ^ 31`.
-/

set_option autoImplicit false

namespace KcpTest.Endpoint

open KcpTest.Kcp KcpTest.Library KcpTest.Library.SlidingWindow

/-- The numbered fragments of a buffer. -/
def entries (buf : List Segment) : Set (ℕ × Fragment) :=
  { entry | ∃ seg ∈ buf, entry = (seg.sn.toNat, seg.fragment) }

theorem entries_core (buf : List Segment) : entries (buf.map Segment.core) = entries buf := by
  ext entry
  constructor
  · rintro ⟨core, member, rfl⟩
    obtain ⟨seg, inBuf, rfl⟩ := List.mem_map.mp member
    exact ⟨seg, inBuf, rfl⟩
  · rintro ⟨seg, inBuf, rfl⟩
    exact ⟨seg.core, List.mem_map_of_mem inBuf, rfl⟩

theorem entries_congr {buf buf' : List Segment}
    (cores : buf'.map Segment.core = buf.map Segment.core) : entries buf' = entries buf := by
  rw [← entries_core buf', cores, entries_core]

theorem entries_append (front back : List Segment) :
    entries (front ++ back) = entries front ∪ entries back := by
  ext entry
  constructor
  · rintro ⟨seg, member, rfl⟩
    rcases List.mem_append.mp member with inFront | inBack
    · exact Or.inl ⟨seg, inFront, rfl⟩
    · exact Or.inr ⟨seg, inBack, rfl⟩
  · rintro (⟨seg, member, rfl⟩ | ⟨seg, member, rfl⟩)
    · exact ⟨seg, List.mem_append_left _ member, rfl⟩
    · exact ⟨seg, List.mem_append_right _ member, rfl⟩

theorem entries_insert {buf out : List Segment} {newseg : Segment}
    (members : ∀ seg, seg ∈ out ↔ seg = newseg ∨ seg ∈ buf) :
    entries out = insert (newseg.sn.toNat, newseg.fragment) (entries buf) := by
  ext entry
  constructor
  · rintro ⟨seg, member, rfl⟩
    rcases (members seg).mp member with rfl | inBuf
    · exact Or.inl rfl
    · exact Or.inr ⟨seg, inBuf, rfl⟩
  · rintro (rfl | ⟨seg, inBuf, rfl⟩)
    · exact ⟨newseg, (members newseg).mpr (Or.inl rfl), rfl⟩
    · exact ⟨seg, (members seg).mpr (Or.inr inBuf), rfl⟩

theorem entries_cons (seg : Segment) (buf : List Segment) :
    entries (seg :: buf) = insert (seg.sn.toNat, seg.fragment) (entries buf) :=
  entries_insert fun _ => List.mem_cons

/-- Admitted segments carry the numbers from `snd_nxt` on. -/
theorem entries_numbered (conv nxt : UInt32) (moved : List Segment)
    (range : nxt.toNat + moved.length < 2 ^ 32) :
    entries (numbered conv nxt moved) =
      numberFrom nxt.toNat (moved.map Segment.fragment) := by
  induction moved generalizing nxt with
  | nil =>
      ext entry
      simp [entries, numbered, numberFrom]
  | cons seg moved inductionHypothesis =>
      simp only [List.length_cons] at range
      have next : (nxt + 1).toNat = nxt.toNat + 1 := toNat_succ (by omega)
      have rest := inductionHypothesis (nxt + 1) (by omega)
      rw [next] at rest
      rw [List.map_cons, numberFrom, ← rest]
      exact entries_cons _ (numbered conv (nxt + 1) moved)

/-! ### The sending half -/

/-- The sending half of `kcp` is the sender of `link`. -/
structure Outgoing (kcp : Kcpcb) (link : Link Fragment) : Prop where
  sndNxt : kcp.sndNxt.toNat = link.sent
  sndQueue : kcp.sndQueue.map Segment.fragment = link.accepted.drop link.sent
  sndBuf : entries kcp.sndBuf = link.unacked

theorem Outgoing.frame {kcp : Kcpcb} {link link' : Link Fragment} (outgoing : Outgoing kcp link)
    (same : SameSender link link') : Outgoing kcp link' where
  sndNxt := by rw [same.sent, outgoing.sndNxt]
  sndQueue := by rw [same.sent, same.accepted, outgoing.sndQueue]
  sndBuf := by rw [same.unacked, outgoing.sndBuf]

/-- A flush admits segments and may emit everything unacknowledged. -/
theorem Outgoing.flush {kcp kcp' : Kcpcb} {link : Link Fragment} {moved : List Segment}
    (outgoing : Outgoing kcp link) (effect : FlushEffect kcp kcp' moved)
    (range : link.sent + moved.length < 2 ^ 32) :
    ∃ link', SenderRun link link' ∧ Outgoing kcp' link' ∧ link'.accepted = link.accepted ∧
      link'.sent = link.sent + moved.length ∧ link'.unacked ⊆ link'.packets := by
  have waiting : link.accepted.drop link.sent =
      moved.map Segment.fragment ++ kcp'.sndQueue.map Segment.fragment := by
    rw [← outgoing.sndQueue, effect.queue, List.map_append]
  have admitted := SenderRun.admitAll link waiting
  rw [List.length_map] at admitted
  have emitted := admitted.tail (SenderStep.emit _ _ Set.Subset.rfl)
  refine ⟨_, emitted, ?_, rfl, rfl, Set.subset_union_right⟩
  refine { sndNxt := ?_, sndQueue := ?_, sndBuf := ?_ }
  · rw [effect.sndNxt, UInt32.toNat_add, UInt32.toNat_ofNat', outgoing.sndNxt]
    change _ = link.sent + moved.length
    omega
  · change _ = link.accepted.drop (link.sent + moved.length)
    rw [← List.drop_drop, waiting, List.drop_append_of_le_length (by simp)]
    simp
  · change _ = link.unacked ∪ _
    rw [← entries_core, effect.sndBuf, entries_append, entries_core, outgoing.sndBuf,
      entries_numbered _ _ _ (by rw [outgoing.sndNxt]; exact range), outgoing.sndNxt]

/-- Accepting a message queues its fragments. -/
theorem Outgoing.accept {kcp : Kcpcb} {link : Link Fragment} (outgoing : Outgoing kcp link)
    (sound : Sound link) (segs : List Segment) :
    Outgoing { kcp with sndQueue := kcp.sndQueue ++ segs }
      { link with accepted := link.accepted ++ segs.map Segment.fragment } where
  sndNxt := outgoing.sndNxt
  sndQueue := by
    rw [List.map_append, outgoing.sndQueue, List.drop_append_of_le_length sound.sent_le]
  sndBuf := outgoing.sndBuf

/-- What a segment from the peer tells the sender is covered by what the peer
has acknowledged. -/
structure Acknowledges (link : Link Fragment) (h : Header) : Prop where
  una : h.una.toNat ∈ link.floors
  ack : h.cmd.toUInt32 = ikcpCmdAck → h.sn.toNat ∈ link.acks

/-- A segment from the peer releases only what is covered. -/
theorem Outgoing.release {kcp kcp' : Kcpcb} {link : Link Fragment} {h : Header} {data : Bytes}
    (outgoing : Outgoing kcp link) (sound : Sound link) (few : link.sent < 2 ^ 31)
    (acknowledges : Acknowledges link h) (effect : SegmentEffect kcp h data kcp') :
    ∃ unacked, SenderRun link { link with unacked := unacked } ∧
      Outgoing kcp' { link with unacked := unacked } := by
  refine ⟨entries kcp'.sndBuf, ?_, ?_⟩
  · refine Relation.ReflTransGen.single (SenderStep.release link _ ?_ ?_)
    · rintro entry ⟨seg, member, rfl⟩
      rw [← outgoing.sndBuf]
      exact ⟨seg, effect.kept seg member, rfl⟩
    · intro entry member gone
      rw [← outgoing.sndBuf] at member
      obtain ⟨seg, inBuf, rfl⟩ := member
      have numberLt : seg.sn.toNat < link.sent :=
        (sound.unacked (seg.sn.toNat, seg.fragment)
          (outgoing.sndBuf ▸ ⟨seg, inBuf, rfl⟩)).1
      rcases effect.released seg inBuf with still | below | ⟨isAck, same⟩
      · exact absurd ⟨seg, still, rfl⟩ gone
      · have floor_le := sound.floors _ acknowledges.una
        have := sound.next_le
        rw [itimediff_of_small (by omega) (by omega)] at below
        exact Or.inr ⟨_, acknowledges.una, by simpa using below⟩
      · exact Or.inl (same ▸ acknowledges.ack isAck)
  · exact
      { sndNxt := by rw [effect.sndNxt]; exact outgoing.sndNxt
        sndQueue := by rw [effect.sndQueue]; exact outgoing.sndQueue
        sndBuf := rfl }

theorem Outgoing.congr {kcp kcp' : Kcpcb} {link : Link Fragment} (outgoing : Outgoing kcp link)
    (sndNxt : kcp'.sndNxt = kcp.sndNxt) (sndQueue : kcp'.sndQueue = kcp.sndQueue)
    (sndBuf : kcp'.sndBuf.map Segment.core = kcp.sndBuf.map Segment.core) :
    Outgoing kcp' link where
  sndNxt := by rw [sndNxt, outgoing.sndNxt]
  sndQueue := by rw [sndQueue, outgoing.sndQueue]
  sndBuf := by rw [entries_congr sndBuf, outgoing.sndBuf]

/-! ### The receiving half -/

/-- The order of `rcv_buf`. -/
abbrev Ascending (buf : List Segment) : Prop :=
  buf.Pairwise fun first second => first.sn.toNat < second.sn.toNat

/-- Without its head, an ordered buffer loses one entry. -/
theorem entries_tail {seg : Segment} {buf : List Segment} (ascending : Ascending (seg :: buf)) :
    entries buf = entries (seg :: buf) \ {(seg.sn.toNat, seg.fragment)} := by
  have absent : (seg.sn.toNat, seg.fragment) ∉ entries buf := by
    intro ⟨other, member, same⟩
    have := (List.pairwise_cons.mp ascending).1 other member
    have := (Prod.mk.inj same).1
    omega
  rw [entries_cons, Set.insert_sdiff_self_of_notMem absent]

/-- The receiving half of `kcp` is the receiver of `link`. A pending
acknowledgement is for a position that the receiver holds. -/
structure Incoming (kcp : Kcpcb) (link : Link Fragment) : Prop where
  rcvNxt : kcp.rcvNxt.toNat = link.next
  ascending : Ascending kcp.rcvBuf
  rcvBuf : entries kcp.rcvBuf = link.buffered
  rcvQueue : kcp.rcvQueue.map Segment.fragment = link.queue
  acklist : ∀ ack ∈ kcp.acklist, link.Holds ack.1.toNat

theorem Incoming.rcvNxt_le {kcp : Kcpcb} {link : Link Fragment} (incoming : Incoming kcp link)
    (sound : Sound link) : kcp.rcvNxt.toNat ≤ link.sent := by
  rw [incoming.rcvNxt]
  exact sound.next_le

/-- What `rcv_buf` holds was sent. -/
theorem Incoming.sn_lt {kcp : Kcpcb} {link : Link Fragment} (incoming : Incoming kcp link)
    (sound : Sound link) {seg : Segment} (member : seg ∈ kcp.rcvBuf) :
    seg.sn.toNat < link.sent := by
  have inBuf : (seg.sn.toNat, seg.fragment) ∈ link.buffered := by
    rw [← incoming.rcvBuf]
    exact ⟨seg, member, rfl⟩
  exact (sound.buffered _ inBuf).2.1

theorem Incoming.frame {kcp : Kcpcb} {link link' : Link Fragment} (incoming : Incoming kcp link)
    (same : SameReceiver link link') : Incoming kcp link' where
  rcvNxt := by rw [same.next, incoming.rcvNxt]
  ascending := incoming.ascending
  rcvBuf := by rw [same.buffered, incoming.rcvBuf]
  rcvQueue := by rw [same.queue, incoming.rcvQueue]
  acklist := fun ack member => by
    have holds := incoming.acklist ack member
    rwa [Link.Holds, ← same.next, ← same.buffered] at holds

theorem Incoming.congr {kcp kcp' : Kcpcb} {link : Link Fragment} (incoming : Incoming kcp link)
    (inbound : kcp'.inbound = kcp.inbound)
    (acklist : ∀ ack ∈ kcp'.acklist, ack ∈ kcp.acklist) : Incoming kcp' link := by
  obtain ⟨rcvNxt, rcvQueue, rcvBuf⟩ := Inbound.mk.inj inbound
  exact
    { rcvNxt := by rw [rcvNxt, incoming.rcvNxt]
      ascending := by
        rw [rcvBuf]
        exact incoming.ascending
      rcvBuf := by rw [rcvBuf, incoming.rcvBuf]
      rcvQueue := by rw [rcvQueue, incoming.rcvQueue]
      acklist := fun ack member => incoming.acklist ack (acklist ack member) }

/-- A flush announces `rcv_nxt` and acknowledges what is pending. -/
theorem Incoming.flush {kcp kcp' : Kcpcb} {link : Link Fragment} {moved : List Segment}
    (incoming : Incoming kcp link) (effect : FlushEffect kcp kcp' moved) :
    ∃ link', ReceiverRun link link' ∧ Incoming kcp' link' ∧ link'.taken = link.taken ∧
      kcp.rcvNxt.toNat ∈ link'.floors ∧ ∀ ack ∈ kcp.acklist, ack.1.toNat ∈ link'.acks := by
  obtain ⟨acks, run, -, covers⟩ := ReceiverRun.acknowledgeAll link
    (kcp.acklist.map fun ack => ack.1.toNat) fun position member => by
      obtain ⟨ack, inList, rfl⟩ := List.mem_map.mp member
      exact incoming.acklist ack inList
  refine ⟨_, run.tail (ReceiverStep.announce _), ?_, rfl, ?_, ?_⟩
  · have kept : Incoming kcp' link := incoming.congr effect.inbound effect.acklist
    exact { kept with }
  · exact Or.inl incoming.rcvNxt
  · exact fun ack member => covers _ (List.mem_map_of_mem member)

/-- Moving in-order segments to `rcv_queue` is a run of advances. -/
theorem moveAvailable_advances (rcvWnd : UInt32) (buf queue : List Segment) (nxt : UInt32)
    (link : Link Fragment) (sound : Sound link) (few : link.sent < 2 ^ 31)
    (rcvNxt : nxt.toNat = link.next) (ascending : Ascending buf)
    (rcvBuf : entries buf = link.buffered)
    (rcvQueue : queue.map Segment.fragment = link.queue) :
    let moved := Kcp.moveAvailable rcvWnd buf queue nxt
    ∃ link', ReceiverRun link link' ∧ link'.taken = link.taken ∧
      moved.2.2.toNat = link'.next ∧ Ascending moved.1 ∧ entries moved.1 = link'.buffered ∧
      moved.2.1.map Segment.fragment = link'.queue := by
  induction buf generalizing queue nxt link with
  | nil => exact ⟨link, Relation.ReflTransGen.refl, rfl, rcvNxt, ascending, rcvBuf, rcvQueue⟩
  | cons seg buf inductionHypothesis =>
      by_cases ready : seg.sn = nxt ∧ queue.length < rcvWnd.toNat
      · have atNext : seg.sn.toNat = link.next := by rw [ready.1, rcvNxt]
        have member : (link.next, seg.fragment) ∈ link.buffered := by
          rw [← rcvBuf, ← atNext]
          exact ⟨seg, List.mem_cons_self, rfl⟩
        have step := ReceiverStep.advance link seg.fragment member
        have below : link.next < link.sent := (sound.buffered _ member).2.1
        have next : (nxt + 1).toNat = link.next + 1 := by
          rw [toNat_succ (by omega), rcvNxt]
        have remaining : entries buf = link.buffered \ {(link.next, seg.fragment)} := by
          rw [← rcvBuf, ← atNext]
          exact entries_tail ascending
        obtain ⟨link', run, taken, result⟩ := inductionHypothesis (queue ++ [seg]) (nxt + 1) _
          (sound.receiverStep step) few next ascending.of_cons remaining (by simp [rcvQueue])
        refine ⟨link', Relation.ReflTransGen.head step run, taken, ?_⟩
        simpa only [Kcp.moveAvailable, if_pos ready] using result
      · simp only [Kcp.moveAvailable, if_neg ready]
        exact ⟨link, Relation.ReflTransGen.refl, rfl, rcvNxt, ascending, rcvBuf, rcvQueue⟩

theorem Incoming.moveAvailable {kcp : Kcpcb} {link : Link Fragment}
    (incoming : Incoming kcp link) (sound : Sound link) (few : link.sent < 2 ^ 31) :
    ∃ link', ReceiverRun link link' ∧ Incoming kcp.moveAvailable link' ∧
      link'.taken = link.taken := by
  obtain ⟨link', run, taken, rcvNxt, ascending, rcvBuf, rcvQueue⟩ :=
    moveAvailable_advances kcp.rcvWnd kcp.rcvBuf kcp.rcvQueue kcp.rcvNxt link sound few
      incoming.rcvNxt incoming.ascending incoming.rcvBuf incoming.rcvQueue
  refine ⟨link', run, ?_, taken⟩
  exact
    { rcvNxt := rcvNxt
      ascending := ascending
      rcvBuf := rcvBuf
      rcvQueue := rcvQueue
      acklist := fun ack member => (incoming.acklist ack member).of_run run }

/-- Taking fragments off `rcv_queue`, and refilling it. -/
theorem Incoming.take {kcp : Kcpcb} {link : Link Fragment} (incoming : Incoming kcp link)
    (sound : Sound link) (few : link.sent < 2 ^ 31) (fragments : List Fragment)
    (queue : List Segment)
    (split : kcp.rcvQueue.map Segment.fragment = fragments ++ queue.map Segment.fragment) :
    ∃ link', ReceiverRun link link' ∧
      Incoming { kcp with rcvQueue := queue }.moveAvailable link' ∧
      link'.taken = link.taken ++ fragments := by
  have step := ReceiverStep.take link fragments (queue.map Segment.fragment)
    (incoming.rcvQueue.symm.trans split)
  have taken : Incoming { kcp with rcvQueue := queue }
      { link with
        queue := queue.map Segment.fragment
        taken := link.taken ++ fragments } := { incoming with rcvQueue := rfl }
  obtain ⟨link', run, refilled, same⟩ := taken.moveAvailable (sound.receiverStep step) few
  exact ⟨link', Relation.ReflTransGen.head step run, refilled, same⟩

/-- The insertion loop finds a segment with the same number, or inserts in
order. -/
theorem insertFromTail_spec (newseg : Segment) (tail : List Segment)
    (descending : tail.Pairwise fun first second => second.sn.toNat < first.sn.toNat)
    (newSmall : newseg.sn.toNat < 2 ^ 31) (small : ∀ seg ∈ tail, seg.sn.toNat < 2 ^ 31) :
    (insertFromTail newseg tail = none ∧ ∃ seg ∈ tail, seg.sn = newseg.sn) ∨
      ∃ out, insertFromTail newseg tail = some out ∧
        (out.Pairwise fun first second => second.sn.toNat < first.sn.toNat) ∧
        ∀ seg, seg ∈ out ↔ seg = newseg ∨ seg ∈ tail := by
  induction tail with
  | nil => exact Or.inr ⟨[newseg], rfl, by simp, by simp⟩
  | cons head tail inductionHypothesis =>
      obtain ⟨below, sorted⟩ := List.pairwise_cons.mp descending
      have headSmall := small head List.mem_cons_self
      by_cases repeated : head.sn = newseg.sn
      · exact Or.inl ⟨by simp [insertFromTail, repeated], head, List.mem_cons_self, repeated⟩
      · have different : head.sn.toNat ≠ newseg.sn.toNat :=
          fun same => repeated (UInt32.toNat_inj.mp same)
        by_cases after : itimediff newseg.sn head.sn > 0
        · rw [itimediff_of_small newSmall headSmall] at after
          refine Or.inr ⟨newseg :: head :: tail, ?_, ?_, by simp⟩
          · rw [insertFromTail, if_neg repeated, itimediff_of_small newSmall headSmall,
              if_pos after]
          · apply List.pairwise_cons.mpr
            constructor
            · intro other member
              rcases List.mem_cons.mp member with rfl | inTail
              · omega
              · have := below other inTail
                omega
            · exact descending
        · have result : insertFromTail newseg (head :: tail) =
              (insertFromTail newseg tail).map (head :: ·) := by
            rw [insertFromTail, if_neg repeated, if_neg after]
          rw [itimediff_of_small newSmall headSmall] at after
          rcases inductionHypothesis sorted
              fun seg member => small seg (List.mem_cons_of_mem _ member) with
            ⟨none', seg, member, same⟩ | ⟨out, some', ordered, members⟩
          · exact Or.inl ⟨by rw [result, none']; rfl, seg, List.mem_cons_of_mem _ member, same⟩
          · refine Or.inr ⟨head :: out, by rw [result, some']; rfl, ?_, ?_⟩
            · apply List.pairwise_cons.mpr
              constructor
              · intro other member
                rcases (members other).mp member with rfl | inTail
                · omega
                · exact below other inTail
              · exact ordered
            · intro seg
              rw [List.mem_cons, members, List.mem_cons]
              exact or_left_comm

/-- A data segment of the peer is stored, and its position is held afterwards. -/
theorem Incoming.parseData {kcp : Kcpcb} {link : Link Fragment}
    (incoming : Incoming kcp link) (newseg : Segment) (sound : Sound link)
    (few : link.sent < 2 ^ 31) (arrived : (newseg.sn.toNat, newseg.fragment) ∈ link.packets)
    (inWindow : itimediff newseg.sn (kcp.rcvNxt + kcp.rcvWnd) < 0)
    (fresh : itimediff newseg.sn kcp.rcvNxt ≥ 0) :
    ∃ link', ReceiverRun link link' ∧ Incoming (ikcpParseData kcp newseg) link' ∧
      link'.taken = link.taken ∧ link'.Holds newseg.sn.toNat := by
  have numberLt := (sound.packets _ arrived).1
  have nextLt := Nat.lt_of_le_of_lt (incoming.rcvNxt_le sound) few
  have outside : ¬ (itimediff newseg.sn (kcp.rcvNxt + kcp.rcvWnd) ≥ 0 ∨
      itimediff newseg.sn kcp.rcvNxt < 0) := by omega
  rw [itimediff_of_small (Nat.lt_trans numberLt few) nextLt, incoming.rcvNxt] at fresh
  have small : ∀ seg ∈ kcp.rcvBuf.reverse, seg.sn.toNat < 2 ^ 31 := fun seg member =>
    Nat.lt_trans (incoming.sn_lt sound (List.mem_reverse.mp member)) few
  rw [ikcpParseData, if_neg outside]
  rcases insertFromTail_spec newseg kcp.rcvBuf.reverse
      (List.pairwise_reverse.mpr incoming.ascending) (Nat.lt_trans numberLt few) small with
    ⟨none', seg, member, same⟩ | ⟨out, some', ordered, members⟩
  · simp only [none']
    obtain ⟨link', run, moved, taken⟩ := incoming.moveAvailable sound few
    have holds : link.Holds newseg.sn.toNat := by
      refine Or.inr ⟨seg.fragment, ?_⟩
      rw [← incoming.rcvBuf, ← same]
      exact ⟨seg, List.mem_reverse.mp member, rfl⟩
    exact ⟨link', run, moved, taken, holds.of_run run⟩
  · simp only [some']
    have step := ReceiverStep.store link newseg.sn.toNat newseg.fragment arrived (by omega)
    have stored : Incoming { kcp with rcvBuf := out.reverse }
        { link with
          buffered := insert (newseg.sn.toNat, newseg.fragment) link.buffered } :=
      { rcvNxt := incoming.rcvNxt
        ascending := List.pairwise_reverse.mpr ordered
        rcvBuf := by
          rw [← incoming.rcvBuf]
          apply entries_insert
          intro seg
          rw [List.mem_reverse, members, List.mem_reverse]
        rcvQueue := incoming.rcvQueue
        acklist := fun ack member =>
          (incoming.acklist ack member).of_run (Relation.ReflTransGen.single step) }
    obtain ⟨link', run, moved, taken⟩ := stored.moveAvailable (sound.receiverStep step) few
    refine ⟨link', Relation.ReflTransGen.head step run, moved, taken, ?_⟩
    exact Link.Holds.of_run (Or.inr ⟨newseg.fragment, Set.mem_insert _ _⟩) run

/-- The acknowledgement is queued before the data is parsed; only together do
they keep the relation. -/
theorem Incoming.push {kcp : Kcpcb} {link : Link Fragment} {h : Header} {data : Bytes}
    (incoming : Incoming kcp link) (sound : Sound link) (few : link.sent < 2 ^ 31)
    (arrived : (h.sn.toNat, (h.frg.toUInt32, data)) ∈ link.packets) :
    ∃ link', ReceiverRun link link' ∧ Incoming (inputPush kcp h data) link' ∧
      link'.taken = link.taken := by
  have acked : ∀ {kcp' : Kcpcb} {link' : Link Fragment}, Incoming kcp' link' →
      link'.Holds h.sn.toNat →
      Incoming { kcp' with acklist := kcp'.acklist ++ [(h.sn, h.ts)] } link' :=
    fun incoming holds =>
      { incoming with
        acklist := fun ack member => by
          rcases List.mem_append.mp member with old | new
          · exact incoming.acklist ack old
          · rw [List.mem_singleton.mp new]
            exact holds }
  unfold inputPush
  by_cases inWindow : itimediff h.sn (kcp.rcvNxt + kcp.rcvWnd) < 0
  · rw [if_pos inWindow]
    by_cases fresh : itimediff h.sn kcp.rcvNxt ≥ 0
    · obtain ⟨link', run, parsed, taken, holds⟩ := incoming.parseData (h.segment data)
        sound few arrived inWindow fresh
      refine ⟨link', run, ?_, taken⟩
      have result : (if itimediff h.sn (ikcpAckPush kcp h.sn h.ts).rcvNxt ≥ 0 then
          ikcpParseData (ikcpAckPush kcp h.sn h.ts) (h.segment data)
          else ikcpAckPush kcp h.sn h.ts) =
          { ikcpParseData kcp (h.segment data) with
            acklist := (ikcpParseData kcp (h.segment data)).acklist ++ [(h.sn, h.ts)] } := by
        rw [if_pos (by exact fresh), ikcpParseData_acklist]
      rw [result]
      exact acked parsed holds
    · rw [if_neg (by exact fresh)]
      refine ⟨link, Relation.ReflTransGen.refl, acked incoming (Or.inl ?_), rfl⟩
      have numberLt := (sound.packets _ arrived).1
      have nextLe := incoming.rcvNxt_le sound
      rw [itimediff_of_small (by omega) (by omega), incoming.rcvNxt] at fresh
      omega
  · rw [if_neg inWindow]
    exact ⟨link, Relation.ReflTransGen.refl, incoming, rfl⟩

end KcpTest.Endpoint
