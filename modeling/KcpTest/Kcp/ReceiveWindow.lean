import KcpTest.Kcp.SendWindow

/-!
Contract: the receive window of a control block.

Owns: what `rcv_buf` and `rcv_queue` hold in terms of `rcv_nxt`, wherever the
counter stands when it wraps around, that nothing ready waits in `rcv_buf` while
`rcv_queue` has room, and the lemma for each operation that it keeps this,
whatever bytes arrive.
-/

set_option autoImplicit false

namespace KcpTest.Kcp

open KcpTest.Library KcpTest.Library.Serial

/-! ### The window -/

/-- The numbers in `rcv_buf` go up from `rcv_nxt` and stay within `limit` of it,
and `rcv_queue` holds at most `limit` segments. -/
structure ReceiveWindow (limit : Nat) (kcp : Kcpcb) : Prop where
  rcvWnd : kcp.rcvWnd.toNat ≤ limit
  early : InWindow kcp.rcvNxt.toBitVec limit (numbers kcp.rcvBuf)
  queue_le : kcp.rcvQueue.length ≤ limit

theorem ReceiveWindow.congr {limit : Nat} {kcp kcp' : Kcpcb} (window : ReceiveWindow limit kcp)
    (rcvWnd : kcp'.rcvWnd = kcp.rcvWnd) (inbound : kcp'.inbound = kcp.inbound) :
    ReceiveWindow limit kcp' := by
  obtain ⟨rcvNxt, rcvQueue, rcvBuf⟩ := Inbound.mk.inj inbound
  exact
    { rcvWnd := rcvWnd ▸ window.rcvWnd
      early := by
        rw [rcvNxt, rcvBuf]
        exact window.early
      queue_le := rcvQueue ▸ window.queue_le }

theorem ReceiveWindow.length_le {limit : Nat} {kcp : Kcpcb} (window : ReceiveWindow limit kcp) :
    kcp.rcvBuf.length ≤ limit := by
  have short := window.early.length_le
  rwa [numbers, List.length_map] at short

/-- Moving in-order segments keeps the window and the bound on `rcv_queue`. -/
theorem moveAvailable_window {limit : Nat} {rcvWnd nxt : UInt32}
    (narrow : rcvWnd.toNat ≤ limit) {buf queue : List Segment}
    (early : InWindow nxt.toBitVec limit (numbers buf)) (short : queue.length ≤ limit) :
    let moved := moveAvailable rcvWnd buf queue nxt
    InWindow moved.2.2.toBitVec limit (numbers moved.1) ∧ moved.2.1.length ≤ limit := by
  induction buf generalizing queue nxt with
  | nil => exact ⟨InWindow.nil _ _, short⟩
  | cons seg buf inductionHypothesis =>
      by_cases ready : seg.sn = nxt ∧ queue.length < rcvWnd.toNat
      · simp only [moveAvailable, if_pos ready]
        apply inductionHypothesis
        · exact early.advance
        · rw [List.length_append, List.length_singleton]
          omega
      · simp only [moveAvailable, if_neg ready]
        exact ⟨early, short⟩

theorem ReceiveWindow.moveAvailable {limit : Nat} {kcp : Kcpcb}
    (window : ReceiveWindow limit kcp) : ReceiveWindow limit kcp.moveAvailable := by
  obtain ⟨early, short⟩ := moveAvailable_window window.rcvWnd window.early window.queue_le
  exact { rcvWnd := window.rcvWnd, early := early, queue_le := short }

/-- The insertion loop finds a segment with the same number, or inserts in the
order of the offsets from `base`. -/
theorem insertFromTail_window (base : UInt32) (newseg : Segment) (tail : List Segment)
    (descending : tail.Pairwise fun first second =>
      snOffset base second.sn < snOffset base first.sn)
    (newSmall : snOffset base newseg.sn < 2 ^ 31)
    (small : ∀ seg ∈ tail, snOffset base seg.sn < 2 ^ 31) :
    (insertFromTail newseg tail = none ∧ ∃ seg ∈ tail, seg.sn = newseg.sn) ∨
      ∃ out, insertFromTail newseg tail = some out ∧
        (out.Pairwise fun first second => snOffset base second.sn < snOffset base first.sn) ∧
        ∀ seg, seg ∈ out ↔ seg = newseg ∨ seg ∈ tail := by
  induction tail with
  | nil => exact Or.inr ⟨[newseg], rfl, by simp, by simp⟩
  | cons head tail inductionHypothesis =>
      obtain ⟨below, sorted⟩ := List.pairwise_cons.mp descending
      have headSmall := small head List.mem_cons_self
      by_cases repeated : head.sn = newseg.sn
      · exact Or.inl ⟨by simp [insertFromTail, repeated], head, List.mem_cons_self, repeated⟩
      · have different : snOffset base head.sn ≠ snOffset base newseg.sn :=
          fun same => repeated (UInt32.toBitVec_inj.mp (offset_inj same))
        by_cases after : itimediff newseg.sn head.sn > 0
        · have result : insertFromTail newseg (head :: tail) = some (newseg :: head :: tail) := by
            rw [insertFromTail, if_neg repeated, if_pos after]
          rw [itimediff_eq_offset newSmall headSmall] at after
          refine Or.inr ⟨newseg :: head :: tail, result, ?_, by simp⟩
          apply List.pairwise_cons.mpr
          constructor
          · intro other member
            rcases List.mem_cons.mp member with rfl | inTail
            · omega
            · have := below other inTail
              omega
          · exact descending
        · have result : insertFromTail newseg (head :: tail) =
              (insertFromTail newseg tail).map (head :: ·) := by
            rw [insertFromTail, if_neg repeated, if_neg after]
          rw [itimediff_eq_offset newSmall headSmall] at after
          rcases inductionHypothesis sorted
              fun seg member => small seg (List.mem_cons_of_mem _ member) with
            ⟨none', seg, member, same⟩ | ⟨out, some', ordered, members⟩
          · exact Or.inl ⟨by rw [result, none']; rfl, seg, List.mem_cons_of_mem _ member, same⟩
          · refine Or.inr ⟨head :: out, by rw [result, some']; rfl, ?_, ?_⟩
            · apply List.pairwise_cons.mpr
              constructor
              · intro other member
                rcases (members other).mp member with rfl | inTail
                · omega
                · exact below other inTail
              · exact ordered
            · intro seg
              rw [List.mem_cons, members, List.mem_cons]
              exact or_left_comm

/-- A data segment the window test lets through is inside the window. -/
theorem snOffset_lt_of_accepted {kcp : Kcpcb} {limit : Nat} (small : limit < 2 ^ 31)
    (narrow : kcp.rcvWnd.toNat ≤ limit) {sn : UInt32}
    (accepted : ¬ (itimediff sn (kcp.rcvNxt + kcp.rcvWnd) ≥ 0 ∨ itimediff sn kcp.rcvNxt < 0)) :
    snOffset kcp.rcvNxt sn < kcp.rcvWnd.toNat := by
  obtain ⟨beforeEnd, fromStart⟩ := not_or.mp accepted
  have nearer : snOffset kcp.rcvNxt sn < 2 ^ 31 := snOffset_lt_half (by omega)
  rw [itimediff_end nearer (by omega)] at beforeEnd
  omega

theorem ReceiveWindow.parseData {limit : Nat} {kcp : Kcpcb} (small : limit < 2 ^ 31)
    (window : ReceiveWindow limit kcp) (newseg : Segment) :
    ReceiveWindow limit (ikcpParseData kcp newseg) := by
  unfold ikcpParseData
  split
  · exact window
  · rename_i accepted
    have inside := snOffset_lt_of_accepted small window.rcvWnd accepted
    have narrow := window.rcvWnd
    have waiting : ∀ seg ∈ kcp.rcvBuf, snOffset kcp.rcvNxt seg.sn < limit := fun seg member =>
      window.early.inside _ (List.mem_map_of_mem member)
    have ascending := window.early.ordered
    rw [numbers, List.pairwise_map] at ascending
    have descending : kcp.rcvBuf.reverse.Pairwise fun first second =>
        snOffset kcp.rcvNxt second.sn < snOffset kcp.rcvNxt first.sn :=
      List.pairwise_reverse.mpr ascending
    apply ReceiveWindow.moveAvailable
    rcases insertFromTail_window kcp.rcvNxt newseg kcp.rcvBuf.reverse descending (by omega)
        fun seg member => (waiting seg (List.mem_reverse.mp member)).trans small with
      ⟨none', -⟩ | ⟨out, some', ordered, members⟩
    · simp only [none']
      exact window
    · simp only [some']
      refine { rcvWnd := narrow, queue_le := window.queue_le, early := ⟨?_, ?_⟩ }
      · exact List.pairwise_map.mpr (List.pairwise_reverse.mpr ordered)
      · intro counter member
        obtain ⟨seg, inBuf, rfl⟩ := List.mem_map.mp member
        rcases (members seg).mp (List.mem_reverse.mp inBuf) with rfl | old
        · exact Nat.lt_of_lt_of_le inside narrow
        · exact waiting seg (List.mem_reverse.mp old)

theorem ReceiveWindow.inputPush {limit : Nat} {kcp : Kcpcb} (small : limit < 2 ^ 31)
    (window : ReceiveWindow limit kcp) (h : Header) (data : Bytes) :
    ReceiveWindow limit (inputPush kcp h data) := by
  have pushed : ReceiveWindow limit (ikcpAckPush kcp h.sn h.ts) := window.congr rfl rfl
  simp only [Kcp.inputPush]
  split
  · split
    · exact pushed.parseData small _
    · exact pushed
  · exact window

theorem receiveSegment_rcvWnd (kcp : Kcpcb) (h : Header) (data : Bytes) :
    (receiveSegment kcp h data).rcvWnd = kcp.rcvWnd := by
  unfold receiveSegment
  split
  · obtain ⟨rcvBuf, rcvQueue, rcvNxt, acklist, pushed⟩ := inputPush_eq kcp h data
    rw [pushed]
  · rfl

theorem ReceiveWindow.inputSegment {limit : Nat} {st : InputState} (small : limit < 2 ^ 31)
    (window : ReceiveWindow limit st.kcp) (h : Header) (data : Bytes) :
    ReceiveWindow limit (inputSegment st h data).kcp := by
  have effect := inputSegment_effect st h data
  have received : ReceiveWindow limit (receiveSegment st.kcp h data) := by
    unfold receiveSegment
    split
    · exact window.inputPush small h data
    · exact window
  exact received.congr ((congrArg Config.rcvWnd effect.config).trans
    (receiveSegment_rcvWnd st.kcp h data).symm) effect.inbound

theorem ReceiveWindow.flush {limit : Nat} {kcp kcp' : Kcpcb} {moved : List Segment}
    (window : ReceiveWindow limit kcp) (effect : FlushEffect kcp kcp' moved) :
    ReceiveWindow limit kcp' :=
  window.congr (congrArg Config.rcvWnd effect.config) effect.inbound

/-- Merging leaves the end of the queue. -/
theorem mergeFragments_suffix (queue : List Segment) :
    (mergeFragments queue).2 <:+ queue := by
  induction queue with
  | nil => exact List.suffix_refl _
  | cons seg rest inductionHypothesis =>
      simp only [mergeFragments]
      split
      · exact List.suffix_cons seg rest
      · exact inductionHypothesis.trans (List.suffix_cons seg rest)

theorem ReceiveWindow.recv {limit : Nat} {kcp : Kcpcb} (window : ReceiveWindow limit kcp)
    (len : Int32) : ReceiveWindow limit (ikcpRecv kcp len).kcp := by
  rcases ikcpRecv_cases kcp len with ⟨-, same, -⟩ | ⟨-, -, -, -, probe, result⟩
  · rw [same]
    exact window
  · have taken : ReceiveWindow limit
        (if len.toInt < 0 then kcp
          else { kcp with rcvQueue := (mergeFragments kcp.rcvQueue).2 }) := by
      split
      · exact window
      · exact { window with
          queue_le := (mergeFragments_suffix _).length_le.trans window.queue_le }
    rw [result]
    exact taken.moveAvailable.congr rfl rfl

/-! ### Nothing ready is left behind -/

/-- When the head of `rcv_buf` is the next segment expected, `rcv_queue` is full. -/
def Settled (kcp : Kcpcb) : Prop :=
  ∀ seg rest, kcp.rcvBuf = seg :: rest → seg.sn = kcp.rcvNxt →
    kcp.rcvWnd.toNat ≤ kcp.rcvQueue.length

theorem Settled.congr {kcp kcp' : Kcpcb} (settled : Settled kcp)
    (rcvWnd : kcp'.rcvWnd = kcp.rcvWnd) (inbound : kcp'.inbound = kcp.inbound) :
    Settled kcp' := by
  obtain ⟨rcvNxt, rcvQueue, rcvBuf⟩ := Inbound.mk.inj inbound
  intro seg rest
  rw [rcvBuf, rcvNxt, rcvQueue, rcvWnd]
  exact settled seg rest

theorem moveAvailable_settled (rcvWnd : UInt32) (buf queue : List Segment) (nxt : UInt32) :
    let moved := moveAvailable rcvWnd buf queue nxt
    ∀ seg rest, moved.1 = seg :: rest → seg.sn = moved.2.2 → rcvWnd.toNat ≤ moved.2.1.length := by
  induction buf generalizing queue nxt with
  | nil =>
      intro moved seg rest left
      simp [moved, moveAvailable] at left
  | cons head buf inductionHypothesis =>
      by_cases ready : head.sn = nxt ∧ queue.length < rcvWnd.toNat
      · simp only [moveAvailable, if_pos ready]
        exact inductionHypothesis (queue ++ [head]) (nxt + 1)
      · simp only [moveAvailable, if_neg ready]
        intro seg rest left same
        obtain ⟨rfl, -⟩ := List.cons.inj left
        exact not_lt.mp fun room => ready ⟨same, room⟩

/-- Whatever was in the buffers. -/
theorem settled_moveAvailable (kcp : Kcpcb) : Settled kcp.moveAvailable :=
  moveAvailable_settled kcp.rcvWnd kcp.rcvBuf kcp.rcvQueue kcp.rcvNxt

theorem Settled.inputPush {kcp : Kcpcb} (settled : Settled kcp) (h : Header) (data : Bytes) :
    Settled (inputPush kcp h data) := by
  have pushed : Settled (ikcpAckPush kcp h.sn h.ts) := settled.congr rfl rfl
  simp only [Kcp.inputPush]
  split
  · split
    · unfold ikcpParseData
      split
      · exact pushed
      · exact settled_moveAvailable _
    · exact pushed
  · exact settled

theorem Settled.inputSegment {st : InputState} (settled : Settled st.kcp) (h : Header)
    (data : Bytes) : Settled (inputSegment st h data).kcp := by
  have effect := inputSegment_effect st h data
  have received : Settled (receiveSegment st.kcp h data) := by
    unfold receiveSegment
    split
    · exact settled.inputPush h data
    · exact settled
  exact received.congr ((congrArg Config.rcvWnd effect.config).trans
    (receiveSegment_rcvWnd st.kcp h data).symm) effect.inbound

theorem Settled.recv {kcp : Kcpcb} (settled : Settled kcp) (len : Int32) :
    Settled (ikcpRecv kcp len).kcp := by
  rcases ikcpRecv_cases kcp len with ⟨-, same, -⟩ | ⟨-, -, -, -, probe, result⟩
  · rw [same]
    exact settled
  · rw [result]
    generalize (if len.toInt < 0 then kcp else _) = taken
    exact (settled_moveAvailable taken).congr rfl rfl

/-! ### Arbitrary bytes -/

theorem Settled.input {kcp : Kcpcb} (settled : Settled kcp) (data : Bytes) :
    Settled (ikcpInput kcp data).2 :=
  ikcpInput_keeps (fun _ h data kept => Settled.inputSegment kept h data)
    (fun st prevUna kept =>
      kept.congr (congrArg Config.rcvWnd (inputEnd_same st prevUna).config)
        (inputEnd_same st prevUna).inbound)
    kcp data settled

theorem ReceiveWindow.input {limit : Nat} {kcp : Kcpcb} (small : limit < 2 ^ 31)
    (window : ReceiveWindow limit kcp) (data : Bytes) :
    ReceiveWindow limit (ikcpInput kcp data).2 :=
  ikcpInput_keeps (fun _ h data kept => ReceiveWindow.inputSegment small kept h data)
    (fun st prevUna kept =>
      kept.congr (congrArg Config.rcvWnd (inputEnd_same st prevUna).config)
        (inputEnd_same st prevUna).inbound)
    kcp data window

end KcpTest.Kcp
