import KcpTest.Endpoint.Socket
import KcpTest.Message.Text

/-!
Contract: the receive loop of `run_udp_thread`.

Owns: one iteration of the loop, the messages KCP has reassembled and not handed
out, and when an iteration hands out all of them.

Does **not** own the sleep between two iterations and the calls of other
threads; `ikcp_check` only reads the control block and its result is printed.
-/

set_option autoImplicit false

namespace KcpTest.Endpoint

open KcpTest.Kcp KcpTest.Message

/-! ### Reassembled messages -/

/-- The control block after the first message was taken. -/
def afterTake (kcp : Kcpcb) : Kcpcb :=
  { kcp with rcvQueue := (mergeFragments kcp.rcvQueue).2 }.moveAvailable

/-- What up to `count` receives with enough room return, one after the other. -/
def receives : Nat → Kcpcb → List Message.Bytes
  | 0, _ => []
  | count + 1, kcp =>
      if ikcpPeeksize kcp < 0 then []
      else (mergeFragments kcp.rcvQueue).1 :: receives count (afterTake kcp)

/-- The segments received and not handed out. A receive takes at least one. -/
def backlog (kcp : Kcpcb) : Nat := kcp.rcvQueue.length + kcp.rcvBuf.length

/-- The messages KCP has reassembled and not handed out. -/
def pending (kcp : Kcpcb) : List Message.Bytes := receives (backlog kcp) kcp

theorem moveAvailable_length (rcvWnd : UInt32) (buf queue : List Segment) (nxt : UInt32) :
    (Kcp.moveAvailable rcvWnd buf queue nxt).2.1.length +
      (Kcp.moveAvailable rcvWnd buf queue nxt).1.length = queue.length + buf.length := by
  induction buf generalizing queue nxt with
  | nil => rfl
  | cons seg buf inductionHypothesis =>
      simp only [Kcp.moveAvailable]
      split
      · rw [inductionHypothesis]
        simp only [List.length_append, List.length_cons, List.length_nil]
        omega
      · rfl

theorem mergeFragments_length_lt {queue : List Segment} (some' : queue ≠ []) :
    (mergeFragments queue).2.length < queue.length := by
  induction queue with
  | nil => exact absurd rfl some'
  | cons seg rest inductionHypothesis =>
      by_cases last : seg.frg = 0
      · simp [mergeFragments, last]
      · simp only [mergeFragments, if_neg last, List.length_cons]
        cases rest with
        | nil => simp [mergeFragments]
        | cons next rest => exact (inductionHypothesis (List.cons_ne_nil _ _)).trans (by simp)

theorem backlog_afterTake {kcp : Kcpcb} (ready : 0 ≤ ikcpPeeksize kcp) :
    backlog (afterTake kcp) < backlog kcp := by
  have shorter := mergeFragments_length_lt (ikcpPeeksize_of_nonneg ready).1
  have total := moveAvailable_length kcp.rcvWnd kcp.rcvBuf (mergeFragments kcp.rcvQueue).2
    kcp.rcvNxt
  simp only [backlog, afterTake, Kcpcb.moveAvailable]
  omega

/-- More receives than there are segments return nothing more. -/
theorem receives_congr {kcp : Kcpcb} {first second : Nat} (enough : backlog kcp ≤ first)
    (enough' : backlog kcp ≤ second) : receives first kcp = receives second kcp := by
  have stops : ∀ {kcp : Kcpcb} {count : Nat}, backlog kcp ≤ 0 → receives count kcp = [] := by
    intro kcp count none'
    have empty : kcp.rcvQueue = [] := by
      rw [← List.length_eq_zero_iff]
      unfold backlog at none'
      omega
    cases count with
    | zero => rfl
    | succ count => simp [receives, ikcpPeeksize, empty]
  induction first generalizing kcp second with
  | zero => rw [stops enough, stops enough]
  | succ first inductionHypothesis =>
      cases second with
      | zero => rw [stops enough', stops enough']
      | succ second =>
          rw [receives, receives]
          by_cases incomplete : ikcpPeeksize kcp < 0
          · rw [if_pos incomplete, if_pos incomplete]
          · have fewer := backlog_afterTake (by omega : 0 ≤ ikcpPeeksize kcp)
            rw [if_neg incomplete, if_neg incomplete]
            rw [inductionHypothesis (by omega) (by omega : backlog (afterTake kcp) ≤ second)]

theorem pending_of_incomplete {kcp : Kcpcb} (incomplete : ikcpPeeksize kcp < 0) :
    pending kcp = [] := by
  unfold pending
  cases backlog kcp with
  | zero => rfl
  | succ size => rw [receives, if_pos incomplete]

theorem pending_of_ready {kcp : Kcpcb} (ready : 0 ≤ ikcpPeeksize kcp) :
    pending kcp = (mergeFragments kcp.rcvQueue).1 :: pending (afterTake kcp) := by
  have fewer := backlog_afterTake ready
  obtain ⟨size, count⟩ : ∃ size, backlog kcp = size + 1 := ⟨backlog kcp - 1, by omega⟩
  rw [pending, count, receives, if_neg (by omega),
    receives_congr (by omega : backlog (afterTake kcp) ≤ size) (Nat.le_refl _), pending]

/-- Only the receiving half counts. -/
theorem pending_probe (kcp : Kcpcb) (probe : UInt32) :
    pending { kcp with probe := probe } = pending kcp := by
  have same : ∀ count (kcp : Kcpcb),
      receives count { kcp with probe := probe } = receives count kcp := by
    intro count
    induction count with
    | zero => exact fun kcp => rfl
    | succ count inductionHypothesis =>
        intro kcp
        rw [receives, receives]
        exact congrArg (fun rest => if ikcpPeeksize kcp < 0 then []
          else (mergeFragments kcp.rcvQueue).1 :: rest) (inductionHypothesis (afterTake kcp))
  exact same _ kcp

/-! ### One iteration -/

/-- What an iteration meets: the clock of its update, the datagram `recvfrom`
returns, the clocks of a `kcpSend`, and the memory behind `rcv_buf`. -/
structure Iteration where
  clock : Int64
  datagram : Option Datagram
  before : Int64
  after : Int64
  beyond : Message.Bytes

/-- What an iteration leaves: whether `ikcp_input` accepted a datagram, the
message `ikcp_recv` took, what was done with it, and what was emitted. -/
structure Outcome where
  kcp : Kcpcb
  accepted : Bool
  taken : Option Message.Bytes
  action : Option (Except ConversionError Action)
  output : List Datagram

/-- What `run_udp_thread` does with an action. -/
def dispatch (kcp : Kcpcb) (it : Iteration) :
    Except ConversionError Action → Kcpcb × List Datagram
  | .ok (.reply text) => kcpSend kcp text (Int32.ofNat text.length) it.before it.after
  | _ => (kcp, [])

/-- The part of an iteration behind an accepted datagram. `recv_len` is zero. -/
def receiveMessage (kcp : Kcpcb) (it : Iteration) : Outcome :=
  let recvLen : Int32 := 0
  let got := ikcpRecv kcp recvLen
  if got.ret ≥ 0 then
    let action := handle (rcvBufString got.data it.beyond)
    let (kcp, output) := dispatch got.kcp it action
    { kcp, accepted := true, taken := some got.data, action := some action, output }
  else { kcp := got.kcp, accepted := true, taken := none, action := none, output := [] }

/-- One iteration of `run_udp_thread`. `recvfrom` cuts a datagram to the size of
`buffer`, and an empty one counts as none. -/
def loopIteration (kcp : Kcpcb) (it : Iteration) : Outcome :=
  let (kcp, output) := ikcpUpdate kcp (clock32 it.clock)
  let data := (it.datagram.getD []).take 2048
  if data.length > 0 then
    let (ret, kcp) := ikcpInput kcp data
    if ret < 0 then { kcp, accepted := false, taken := none, action := none, output }
    else
      let outcome := receiveMessage kcp it
      { outcome with output := output ++ outcome.output }
  else { kcp, accepted := false, taken := none, action := none, output }

/-- The control block when `ikcp_recv` is reached. -/
def atReceive (kcp : Kcpcb) (it : Iteration) : Kcpcb :=
  (ikcpInput (ikcpUpdate kcp (clock32 it.clock)).1 ((it.datagram.getD []).take 2048)).2

/-- Whether the datagram is accepted. -/
def Accepts (kcp : Kcpcb) (it : Iteration) : Prop :=
  0 < ((it.datagram.getD []).take 2048).length ∧
    0 ≤ (ikcpInput (ikcpUpdate kcp (clock32 it.clock)).1
      ((it.datagram.getD []).take 2048)).1

/-- When a datagram was accepted, every message reassembled by then was taken and
dispatched once, in order, and none is left. -/
def Served (kcp : Kcpcb) (it : Iteration) : Prop :=
  Accepts kcp it →
    pending (loopIteration kcp it).kcp = [] ∧
      (loopIteration kcp it).taken.toList = pending (atReceive kcp it) ∧
      (loopIteration kcp it).action.toList =
        (pending (atReceive kcp it)).map fun message => handle (rcvBufString message it.beyond)

/-- The datagram is refused, or completes no message but a single empty one. -/
def CompletesNothing (kcp : Kcpcb) (it : Iteration) : Prop :=
  Accepts kcp it → pending (atReceive kcp it) = [] ∨ pending (atReceive kcp it) = [[]]

/-- No message of the iteration is longer than `rcv_buf` allows. -/
def ShortMessages (kcp : Kcpcb) (it : Iteration) : Prop :=
  ∀ message ∈ pending (atReceive kcp it), message.length ≤ 2047

/-- `P` holds of every iteration of a run. An exception ends the process. -/
def EveryIteration (P : Kcpcb → Iteration → Prop) : Kcpcb → List Iteration → Prop
  | _, [] => True
  | kcp, it :: rest =>
      P kcp it ∧
        match (loopIteration kcp it).action with
        | some (.error _) => True
        | _ => EveryIteration P (loopIteration kcp it).kcp rest

theorem EveryIteration.congr {P Q : Kcpcb → Iteration → Prop}
    (pointwise : ∀ kcp it, P kcp it ↔ Q kcp it) (kcp : Kcpcb) (run : List Iteration) :
    EveryIteration P kcp run ↔ EveryIteration Q kcp run := by
  induction run generalizing kcp with
  | nil => exact Iff.rfl
  | cons it rest inductionHypothesis =>
      refine and_congr (pointwise kcp it) ?_
      split
      · exact Iff.rfl
      · exact inductionHypothesis _

/-! ### What an iteration takes -/

theorem loopIteration_accepts {kcp : Kcpcb} {it : Iteration} (accepts : Accepts kcp it) :
    (loopIteration kcp it).kcp = (receiveMessage (atReceive kcp it) it).kcp ∧
      (loopIteration kcp it).taken = (receiveMessage (atReceive kcp it) it).taken ∧
      (loopIteration kcp it).action = (receiveMessage (atReceive kcp it) it).action := by
  obtain ⟨filled, accepted⟩ := accepts
  simp only [loopIteration, atReceive, if_pos filled, if_neg (not_lt.mpr accepted), and_self]

/-- With `recv_len` zero, only an empty message is taken, and it is malformed. -/
theorem receiveMessage_cases (kcp : Kcpcb) (it : Iteration) :
    ((receiveMessage kcp it).taken = none ∧ (receiveMessage kcp it).action = none ∧
        (receiveMessage kcp it).kcp = kcp ∧
        (0 ≤ ikcpPeeksize kcp → (mergeFragments kcp.rcvQueue).1 ≠ [])) ∨
      0 ≤ ikcpPeeksize kcp ∧ (mergeFragments kcp.rcvQueue).1 = [] ∧
        (receiveMessage kcp it).taken = some [] ∧
        (receiveMessage kcp it).action = some (handle (rcvBufString [] it.beyond)) ∧
        pending (receiveMessage kcp it).kcp = pending (afterTake kcp) := by
  have zero : (0 : Int32).toInt.natAbs = 0 := by decide
  have length : 0 ≤ ikcpPeeksize kcp →
      ikcpPeeksize kcp = (mergeFragments kcp.rcvQueue).1.length := fun ready => by
    rw [(ikcpPeeksize_of_nonneg ready).2, mergeFragments_length]
  rcases ikcpRecv_cases kcp 0 with
    ⟨refused, same, narrow⟩ | ⟨ready, fits, ret, data, probe, result⟩
  · left
    simp only [receiveMessage, if_neg (not_le.mpr refused), same, true_and]
    intro ready empty
    have peeked := length ready
    have := narrow ready
    rw [empty, List.length_nil] at peeked
    omega
  · right
    have empty : (mergeFragments kcp.rcvQueue).1 = [] := by
      rw [← List.length_eq_zero_iff]
      have := length ready
      omega
    have malformed : handle (rcvBufString [] it.beyond) = .ok .malformed := rfl
    have returned : 0 ≤ (ikcpRecv kcp 0).ret := by
      rw [ret]
      exact Int.natCast_nonneg _
    rw [empty] at data
    refine ⟨ready, empty, ?_⟩
    simp only [receiveMessage, ge_iff_le, if_pos returned, data, malformed, dispatch, true_and]
    rw [result, if_neg (by decide), pending_probe, afterTake]

/-- An iteration serves its messages exactly when there are none, or a single
empty one. -/
theorem served_iff (kcp : Kcpcb) (it : Iteration) : Served kcp it ↔ CompletesNothing kcp it := by
  refine forall_congr' fun accepts => ?_
  obtain ⟨after, taken, action⟩ := loopIteration_accepts accepts
  rw [after, taken, action]
  generalize atReceive kcp it = kcp at *
  rcases receiveMessage_cases kcp it with
    ⟨none', noAction, same, filled⟩ | ⟨ready, empty, some', dispatched, rest⟩
  · rw [none', noAction, same]
    by_cases incomplete : ikcpPeeksize kcp < 0
    · simp [pending_of_incomplete incomplete]
    · have ready : 0 ≤ ikcpPeeksize kcp := by omega
      simp [pending_of_ready ready, filled ready]
  · rw [some', dispatched, rest, pending_of_ready ready, empty]
    constructor
    · rintro ⟨none', -⟩
      exact Or.inr (by rw [none'])
    · rintro (absurd' | single)
      · simp at absurd'
      · have none' : pending (afterTake kcp) = [] := by simpa using single
        simp [none']

/-- In a run of the loop every iteration serves its messages if and only if no
datagram completes a message, an empty one that comes alone apart. -/
theorem loop_served_iff (run : List Iteration) :
    EveryIteration Served createKCP run ↔ EveryIteration CompletesNothing createKCP run :=
  EveryIteration.congr served_iff createKCP run

/-- A datagram with one segment that is the whole message `h`. -/
def greeting : Datagram :=
  Segment.encode { conv := 0x11223344, cmd := ikcpCmdPush, wnd := 128, data := [104] }

/-- The loop leaves a message of one byte in the queue. -/
theorem not_loop_served :
    ¬ ∀ run : List Iteration, EveryIteration ShortMessages createKCP run →
      EveryIteration Served createKCP run := by
  intro served
  let it : Iteration :=
    { clock := 0, datagram := some greeting, before := 0, after := 0, beyond := [] }
  have short : EveryIteration ShortMessages createKCP [it] := by
    have messages : pending (atReceive createKCP it) = [[104]] := by decide
    constructor
    · rw [ShortMessages, messages]
      decide
    · split <;> trivial
  have accepts : Accepts createKCP it := ⟨by decide, by decide⟩
  have left : pending (loopIteration createKCP it).kcp = [[104]] := by decide
  have none' := ((served [it] short).1 accepts).1
  rw [left] at none'
  simp at none'

end KcpTest.Endpoint
