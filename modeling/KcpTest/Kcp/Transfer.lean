import KcpTest.Kcp.Control

/-!
Contract: the user side of KCP, `ikcp_peeksize`, `ikcp_recv` and `ikcp_send`.

Owns: fragmenting a message into the send queue, merging fragments out of the
receive queue, and moving in-order segments from `rcv_buf` to `rcv_queue`.
-/

set_option autoImplicit false

namespace KcpTest.Kcp

/-! ### Receiving -/

/-- The summing loop of `ikcp_peeksize`: it stops behind the first segment with
`frg = 0`. -/
def fragmentLength : List Segment → Nat
  | [] => 0
  | seg :: rest => if seg.frg = 0 then seg.len else seg.len + fragmentLength rest

def ikcpPeeksize (kcp : Kcpcb) : Int :=
  match kcp.rcvQueue with
  | [] => -1
  | seg :: _ =>
      if seg.frg = 0 then seg.len
      else if kcp.nrcvQue < (seg.frg + 1).toNat then -1
      else fragmentLength kcp.rcvQueue

/-- The merging loop of `ikcp_recv`: the bytes copied, and the segments left
behind in the queue. -/
def mergeFragments : List Segment → Bytes × List Segment
  | [] => ([], [])
  | seg :: rest =>
      if seg.frg = 0 then (seg.data, rest)
      else (seg.data ++ (mergeFragments rest).1, (mergeFragments rest).2)

/-- The loop that `ikcp_recv` and `ikcp_parse_data` share: while the head of
`rcv_buf` is the next segment expected and the window has room, it moves to
`rcv_queue`. The results are `rcv_buf`, `rcv_queue` and `rcv_nxt`. -/
def moveAvailable (rcvWnd : UInt32) :
    List Segment → List Segment → UInt32 → List Segment × List Segment × UInt32
  | [], queue, nxt => ([], queue, nxt)
  | seg :: buf, queue, nxt =>
      if seg.sn = nxt ∧ queue.length < rcvWnd.toNat then
        moveAvailable rcvWnd buf (queue ++ [seg]) (nxt + 1)
      else (seg :: buf, queue, nxt)

def Kcpcb.moveAvailable (kcp : Kcpcb) : Kcpcb :=
  let moved := Kcp.moveAvailable kcp.rcvWnd kcp.rcvBuf kcp.rcvQueue kcp.rcvNxt
  { kcp with rcvBuf := moved.1, rcvQueue := moved.2.1, rcvNxt := moved.2.2 }

/-- The result of `ikcp_recv`: its return value, the bytes it copied to the
caller's buffer and the control block afterwards. -/
structure RecvResult where
  ret : Int
  data : Bytes
  kcp : Kcpcb

/-- A negative `len` peeks: it copies the message and leaves it in the queue. -/
def ikcpRecv (kcp : Kcpcb) (len : Int32) : RecvResult :=
  let len := len.toInt
  let ispeek := len < 0
  if kcp.rcvQueue = [] then ⟨-1, [], kcp⟩
  else
    let len := if len < 0 then -len else len
    let peeksize := ikcpPeeksize kcp
    if peeksize < 0 then ⟨-2, [], kcp⟩
    else if peeksize > len then ⟨-3, [], kcp⟩
    else
      let recover := kcp.nrcvQue ≥ kcp.rcvWnd.toNat
      let merged := mergeFragments kcp.rcvQueue
      let kcp := if ispeek then kcp else { kcp with rcvQueue := merged.2 }
      let kcp := kcp.moveAvailable
      -- fast recover: tell the remote the window has opened again
      let kcp :=
        if kcp.nrcvQue < kcp.rcvWnd.toNat ∧ recover then
          { kcp with probe := kcp.probe ||| ikcpAskTell }
        else kcp
      ⟨merged.1.length, merged.1, kcp⟩

/-- `assert(len == peeksize)` in `ikcp_recv`: both loops stop at the same
segment. -/
theorem mergeFragments_length (queue : List Segment) :
    (mergeFragments queue).1.length = fragmentLength queue := by
  induction queue with
  | nil => rfl
  | cons seg rest inductionHypothesis =>
      by_cases last : seg.frg = 0
      · simp [mergeFragments, fragmentLength, last, Segment.len]
      · simp [mergeFragments, fragmentLength, last, Segment.len, inductionHypothesis]

theorem ikcpPeeksize_of_nonneg {kcp : Kcpcb} (ready : 0 ≤ ikcpPeeksize kcp) :
    kcp.rcvQueue ≠ [] ∧ ikcpPeeksize kcp = fragmentLength kcp.rcvQueue := by
  cases queue : kcp.rcvQueue with
  | nil => simp [ikcpPeeksize, queue] at ready
  | cons seg rest =>
      refine ⟨List.cons_ne_nil _ _, ?_⟩
      by_cases last : seg.frg = 0
      · simp [ikcpPeeksize, queue, fragmentLength, last]
      · simp only [ikcpPeeksize, queue, if_neg last] at ready ⊢
        split at ready
        · simp at ready
        · rename_i enough
          rw [if_neg enough]

/-- `ikcp_recv` refuses and changes nothing, or copies the first message, takes
it off the queue unless it peeks, and refills the queue. -/
theorem ikcpRecv_cases (kcp : Kcpcb) (len : Int32) :
    ((ikcpRecv kcp len).ret < 0 ∧ (ikcpRecv kcp len).kcp = kcp ∧
        (0 ≤ ikcpPeeksize kcp → len.toInt.natAbs < ikcpPeeksize kcp)) ∨
      0 ≤ ikcpPeeksize kcp ∧ ikcpPeeksize kcp ≤ len.toInt.natAbs ∧
        (ikcpRecv kcp len).ret = (mergeFragments kcp.rcvQueue).1.length ∧
        (ikcpRecv kcp len).data = (mergeFragments kcp.rcvQueue).1 ∧
        ∃ probe, (ikcpRecv kcp len).kcp =
          { (if len.toInt < 0 then kcp
              else { kcp with rcvQueue := (mergeFragments kcp.rcvQueue).2 }).moveAvailable with
            probe := probe } := by
  have absolute : (if len.toInt < 0 then -len.toInt else len.toInt) = len.toInt.natAbs := by
    split <;> omega
  simp only [ikcpRecv, absolute]
  generalize Kcpcb.moveAvailable _ = moved
  by_cases waiting : kcp.rcvQueue = []
  · simp [waiting, ikcpPeeksize]
  · by_cases incomplete : ikcpPeeksize kcp < 0
    · simp [waiting, incomplete]
    · by_cases narrow : ikcpPeeksize kcp > len.toInt.natAbs
      · simp only [if_neg waiting, if_neg incomplete, if_pos narrow]
        exact Or.inl ⟨by decide, trivial, fun _ => narrow⟩
      · right
        simp only [if_neg waiting, if_neg incomplete, if_neg narrow]
        refine ⟨by omega, by omega, trivial, trivial, ?_⟩
        split
        · exact ⟨_, rfl⟩
        · exact ⟨moved.probe, rfl⟩

/-! ### Sending -/

/-- The local `size` of the fragment loop. -/
def fragmentSize (mss : Nat) (len : Int) : Nat := if len > mss then mss else len.toNat

/-- The segments the fragment loop of `ikcp_send` appends, with `count` rounds
to go. -/
def fragmentLoop (mss : Nat) (stream : Int32) : Nat → Bytes → Int → List Segment
  | 0, _, _ => []
  | count + 1, buffer, len =>
      { data := buffer.take (fragmentSize mss len)
        frg := if stream = 0 then UInt32.ofNat count else 0 } ::
        fragmentLoop mss stream count (buffer.drop (fragmentSize mss len))
          (len - fragmentSize mss len)

/-- What the same loop adds to `sent`. -/
def fragmentSent (mss : Nat) : Nat → Int → Nat
  | 0, _ => 0
  | count + 1, len =>
      fragmentSize mss len + fragmentSent mss count (len - fragmentSize mss len)

/-- The number of fragments `ikcp_send` cuts `len` bytes into. The division is
the unsigned one of the source. -/
def fragmentCount (mss : UInt32) (len : Int) : Int :=
  if len ≤ mss.toInt32.toInt then 1
  else ((UInt32.ofInt len + mss - 1) / mss).toInt32.toInt

/-- Streaming mode: the tail of the send queue grows by up to `mss` bytes. The
results are the send queue and the number of bytes taken. -/
def extendTail (kcp : Kcpcb) (buffer : Bytes) (len : Int) : List Segment × Nat :=
  match kcp.sndQueue.getLast? with
  | none => (kcp.sndQueue, 0)
  | some old =>
      if old.len < kcp.mss.toNat then
        let capacity := kcp.mss.toNat - old.len
        let extend := if len < capacity then len.toNat else capacity
        (kcp.sndQueue.dropLast ++ [{ data := old.data ++ buffer.take extend, frg := 0 }], extend)
      else (kcp.sndQueue, 0)

/-- `buffer` holds the bytes at the pointer the source is given; `len` of them
are sent. -/
def ikcpSend (kcp : Kcpcb) (buffer : Bytes) (len : Int32) : Int × Kcpcb :=
  let len := len.toInt
  if len < 0 then (-1, kcp)
  else
    let (queue, sent) :=
      if kcp.stream ≠ 0 then extendTail kcp buffer len else (kcp.sndQueue, 0)
    let kcp := { kcp with sndQueue := queue }
    let buffer := buffer.drop sent
    let len := len - sent
    if kcp.stream ≠ 0 ∧ len ≤ 0 then (sent, kcp)
    else
      let count := fragmentCount kcp.mss len
      if count ≥ ikcpWndRcv.toNat then
        if kcp.stream ≠ 0 ∧ sent > 0 then (sent, kcp) else (-2, kcp)
      else
        let count := if count = 0 then 1 else count
        (sent + fragmentSent kcp.mss.toNat count.toNat len,
          { kcp with
            sndQueue :=
              kcp.sndQueue ++ fragmentLoop kcp.mss.toNat kcp.stream count.toNat buffer len })

end KcpTest.Kcp
