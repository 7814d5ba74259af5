import KcpTest.Kcp.Api
import KcpTest.Kcp.FlushOutput

/-!
Contract: sleeping until the time `ikcp_check` gives.

Owns: that no update before this time flushes, two ways to drive a control block
through the same milliseconds, and that they emit the same datagrams at the same
clocks.

Does not own: a block that `ikcp_input` is called on in between, which the comment
at `ikcp_check` leaves out, too.
-/

set_option autoImplicit false

namespace KcpTest.Kcp

/-! ### The time of the next update -/

/-- The time left, when the flush timer is close and has not expired. -/
theorem packetTime_le (current : UInt32) (buf : List Segment) {tmPacket time : Int}
    (found : packetTime current buf tmPacket = some time) :
    time ≤ tmPacket ∧ (0 < tmPacket → 0 < time) := by
  induction buf generalizing tmPacket with
  | nil =>
      have same : tmPacket = time := Option.some.inj found
      omega
  | cons seg buf inductionHypothesis =>
      simp only [packetTime] at found
      split at found
      · simp at found
      · obtain ⟨time_le, pos⟩ := inductionHypothesis found
        split at time_le <;> split at pos <;> omega

/-- `ikcp_check` gives the clock itself, or a time that is not past the flush
timer, which is ahead of the clock. -/
theorem ikcpCheck_cases {kcp : Kcpcb} (busy : kcp.updated ≠ 0) (current : UInt32) :
    ikcpCheck kcp current = current ∨
      -10000 ≤ itimediff current kcp.tsFlush ∧ itimediff current kcp.tsFlush < 0 ∧
        ∃ wait : UInt32, ikcpCheck kcp current = current + wait ∧
          (wait.toNat : Int) ≤ -itimediff current kcp.tsFlush := by
  unfold ikcpCheck
  rw [if_neg busy]
  by_cases far : itimediff current kcp.tsFlush ≥ 10000 ∨ itimediff current kcp.tsFlush < -10000
  · left
    simp [if_pos far, itimediff_self]
  · simp only [if_neg far]
    by_cases expired : itimediff current kcp.tsFlush ≥ 0
    · exact Or.inl (if_pos expired)
    · rw [if_neg expired, itimediff_swap (by omega) (by omega)]
      cases found : packetTime current kcp.sndBuf 0x7fffffff with
      | none => exact Or.inl rfl
      | some tmPacket =>
          right
          obtain ⟨-, pos⟩ := packetTime_le current kcp.sndBuf found
          refine ⟨by omega, by omega, _, rfl, ?_⟩
          have left : 0 ≤ (if tmPacket < -itimediff current kcp.tsFlush then tmPacket
              else -itimediff current kcp.tsFlush) ∧
            (if tmPacket < -itimediff current kcp.tsFlush then tmPacket
              else -itimediff current kcp.tsFlush) ≤ -itimediff current kcp.tsFlush := by
            have := pos (by decide)
            split <;> omega
          generalize (if tmPacket < _ then tmPacket else _ : Int) = minimal at left ⊢
          have stored : (UInt32.ofInt minimal).toNat = minimal.toNat := by
            simp only [UInt32.ofInt, UInt32.toNat_ofNat']
            omega
          split
          · rename_i wide
            have := UInt32.le_iff_toNat_le.mp wide
            omega
          · omega

/-- No update flushes before the time `ikcp_check` gives. -/
theorem not_flushDue_before_check {kcp : Kcpcb} (busy : kcp.updated ≠ 0) (current : UInt32)
    {wait : Nat} (early : wait < (ikcpCheck kcp current - current).toNat) :
    ¬ FlushDue kcp (current + UInt32.ofNat wait) := by
  have back : ∀ step : UInt32, current + step - current = step := fun step => by
    rw [UInt32.add_comm, UInt32.add_sub_cancel]
  rcases ikcpCheck_cases busy current with now | ⟨near, ahead, until', check, within⟩
  · rw [now, UInt32.sub_self] at early
    exact absurd early (Nat.not_lt_zero wait)
  · rw [check, back] at early
    have stored : (UInt32.ofNat wait).toNat = wait := by
      rw [UInt32.toNat_ofNat']
      have := until'.toNat_lt
      omega
    have later : itimediff (current + UInt32.ofNat wait) kcp.tsFlush =
        itimediff current kcp.tsFlush + wait := by
      rw [itimediff_add_left (by omega) (by omega), stored]
    unfold FlushDue
    rw [later]
    omega

/-! ### Two ways to drive a block -/

/-- Calls between two updates that leave the flush timer and the clock alone, and
do not read them. `ikcp_input` measures round trips against `current`, which is
older while nothing is updated. -/
def Api.Quiet : Api → Prop
  | .send _ _ => True
  | .recv _ => True
  | .setmtu _ => True
  | .interval _ => True
  | .nodelay _ _ _ _ => True
  | .wndsize _ _ => True
  | _ => False

/-- A datagram and the clock at which it is handed over. -/
abbrev Timed := UInt32 × Datagram

/-- `ikcp_update` in every millisecond from `now` on. The list holds the calls
made before each update. -/
def polled (kcp : Kcpcb) (now : UInt32) : List (List Api) → Kcpcb × List Timed
  | [] => (kcp, [])
  | calls :: ticks =>
      let (kcp, _) := runApi kcp calls
      let (kcp, output) := ikcpUpdate kcp now
      let (kcp, rest) := polled kcp (now + 1) ticks
      (kcp, output.map (now, ·) ++ rest)

/-- `ikcp_update` only when the time the last `ikcp_check` gave is there; `sleep`
are the milliseconds left. A time that is there already counts as the next
millisecond. -/
def scheduled (kcp : Kcpcb) (now : UInt32) : Nat → List (List Api) → Kcpcb × List Timed
  | _, [] => (kcp, [])
  | sleep + 1, calls :: ticks => scheduled (runApi kcp calls).1 (now + 1) sleep ticks
  | 0, calls :: ticks =>
      let (kcp, _) := runApi kcp calls
      let (kcp, output) := ikcpUpdate kcp now
      let sleep := (ikcpCheck kcp now - now).toNat - 1
      let (kcp, rest) := scheduled kcp (now + 1) sleep ticks
      (kcp, output.map (now, ·) ++ rest)

/-- The clock plays no part in a receive. -/
theorem ikcpRecv_current (kcp : Kcpcb) (len : Int32) (current : UInt32) :
    (ikcpRecv { kcp with current := current } len).kcp =
      { (ikcpRecv kcp len).kcp with current := current } := by
  have peek : ikcpPeeksize { kcp with current := current } = ikcpPeeksize kcp := rfl
  -- the queue the refill starts from
  have refill : ∀ queue : List Segment,
      { kcp with current := current, rcvQueue := queue }.moveAvailable =
        { { kcp with rcvQueue := queue }.moveAvailable with current := current } := fun _ => rfl
  have whole := refill kcp.rcvQueue
  simp only [ikcpRecv, peek]
  generalize (if len.toInt < 0 then -len.toInt else len.toInt) = room
  split
  · rfl
  · split
    · rfl
    · split
      · rfl
      · by_cases ispeek : len.toInt < 0
        · simp only [if_pos ispeek]
          generalize kcp.moveAvailable = moved at whole ⊢
          rw [whole]
          show (if moved.nrcvQue < moved.rcvWnd.toNat ∧ kcp.nrcvQue ≥ kcp.rcvWnd.toNat then _
            else _) = _
          split <;> rfl
        · simp only [if_neg ispeek]
          have merged := refill (mergeFragments kcp.rcvQueue).2
          generalize { kcp with rcvQueue := (mergeFragments kcp.rcvQueue).2 }.moveAvailable = moved
            at merged ⊢
          rw [merged]
          show (if moved.nrcvQue < moved.rcvWnd.toNat ∧ kcp.nrcvQue ≥ kcp.rcvWnd.toNat then _
            else _) = _
          split <;> rfl

/-- The clock plays no part in a quiet call. -/
theorem run_current (kcp : Kcpcb) {call : Api} (quiet : call.Quiet) (current : UInt32) :
    (call.run { kcp with current := current }).1 =
      { (call.run kcp).1 with current := current } := by
  cases call with
  | send buffer len =>
      show (ikcpSend { kcp with current := current } buffer len).2 =
        { (ikcpSend kcp buffer len).2 with current := current }
      have tail : extendTail { kcp with current := current } buffer len.toInt =
          extendTail kcp buffer len.toInt := rfl
      simp only [ikcpSend, tail]
      generalize (if kcp.stream ≠ 0 then _ else _ : List Segment × Nat) = extended
      split
      · rfl
      · split
        · rfl
        · split
          · split <;> rfl
          · rfl
  | recv len => exact ikcpRecv_current kcp len current
  | input data => exact absurd quiet id
  | update current => exact absurd quiet id
  | flush => exact absurd quiet id
  | setmtu mtu =>
      simp only [Api.run, ikcpSetmtu]
      split <;> rfl
  | interval ms => rfl
  | nodelay on ms resend nc =>
      simp only [Api.run, ikcpNodelay]
      by_cases a : on ≥ 0 <;> by_cases b : ms ≥ 0 <;> by_cases c : resend ≥ 0 <;>
        by_cases d : nc ≥ 0 <;> simp only [a, b, c, d, if_true, if_false]
  | wndsize sndwnd rcvwnd =>
      simp only [Api.run, ikcpWndsize]
      split <;> split <;> rfl

theorem Api.Quiet.passive {call : Api} (quiet : call.Quiet) : call.Passive := by
  cases call <;> first | exact trivial | exact absurd quiet id

section QuietCalls

variable {calls : List Api} (quiet : ∀ call ∈ calls, call.Quiet)
include quiet

theorem runApi_current (kcp : Kcpcb) (current : UInt32) :
    (runApi { kcp with current := current } calls).1 =
      { (runApi kcp calls).1 with current := current } := by
  induction calls generalizing kcp with
  | nil => rfl
  | cons call calls inductionHypothesis =>
      have first := run_current kcp (quiet call List.mem_cons_self) current
      simp only [runApi, first]
      exact inductionHypothesis (fun other member => quiet other (List.mem_cons_of_mem _ member)) _

theorem runApi_timer (kcp : Kcpcb) :
    (runApi kcp calls).1.tsFlush = kcp.tsFlush ∧ (runApi kcp calls).1.updated = kcp.updated := by
  have same := runApi_schedule kcp fun call member => (quiet call member).passive
  exact ⟨congrArg Schedule.tsFlush same, congrArg Schedule.updated same⟩

end QuietCalls

/-! ### The refinement -/

/-- An update takes nothing from the clock of the last one. -/
theorem ikcpUpdate_current (kcp : Kcpcb) (before current : UInt32) :
    ikcpUpdate { kcp with current := before } current = ikcpUpdate kcp current := by
  simp only [ikcpUpdate]

/-- The timer does not expire within the next `sleep` milliseconds. -/
def Rests (kcp : Kcpcb) (now : UInt32) (sleep : Nat) : Prop :=
  kcp.updated ≠ 0 ∧ ∀ wait < sleep, ¬ FlushDue kcp (now + UInt32.ofNat wait)

theorem rests_of_check {kcp : Kcpcb} (busy : kcp.updated ≠ 0) (now : UInt32) :
    Rests kcp (now + 1) ((ikcpCheck kcp now - now).toNat - 1) := by
  refine ⟨busy, fun wait early => ?_⟩
  have later : now + 1 + UInt32.ofNat wait = now + UInt32.ofNat (wait + 1) := by
    rw [UInt32.ofNat_add, UInt32.add_assoc, UInt32.add_comm 1]
    rfl
  rw [later]
  exact not_flushDue_before_check busy now (by omega)

theorem Rests.tail {kcp : Kcpcb} {now : UInt32} {sleep : Nat} (rests : Rests kcp now (sleep + 1)) :
    Rests kcp (now + 1) sleep := by
  refine ⟨rests.1, fun wait early => ?_⟩
  have later : now + 1 + UInt32.ofNat wait = now + UInt32.ofNat (wait + 1) := by
    rw [UInt32.ofNat_add, UInt32.add_assoc, UInt32.add_comm 1]
    rfl
  rw [later]
  exact rests.2 (wait + 1) (by omega)

theorem Rests.congr {kcp kcp' : Kcpcb} {now : UInt32} {sleep : Nat} (rests : Rests kcp now sleep)
    (tsFlush : kcp'.tsFlush = kcp.tsFlush) (updated : kcp'.updated = kcp.updated) :
    Rests kcp' now sleep := by
  refine ⟨updated ▸ rests.1, fun wait early => ?_⟩
  rw [FlushDue, tsFlush]
  exact rests.2 wait early

/-- From blocks that differ in `current` at most, while the sleeping one rests. -/
theorem scheduled_simulates (ticks : List (List Api))
    (quiet : ∀ calls ∈ ticks, ∀ call ∈ calls, call.Quiet) (kcp : Kcpcb) (before now : UInt32)
    (sleep : Nat) (rests : sleep = 0 ∨ Rests kcp now sleep) :
    (scheduled kcp now sleep ticks).2 = (polled { kcp with current := before } now ticks).2 ∧
      ∃ current, (polled { kcp with current := before } now ticks).1 =
        { (scheduled kcp now sleep ticks).1 with current := current } := by
  induction ticks generalizing kcp before now sleep with
  | nil => cases sleep <;> exact ⟨rfl, before, rfl⟩
  | cons calls ticks inductionHypothesis =>
      have quietCalls := quiet calls List.mem_cons_self
      have quietRest : ∀ calls ∈ ticks, ∀ call ∈ calls, call.Quiet := fun other member =>
        quiet other (List.mem_cons_of_mem _ member)
      have moved := runApi_current quietCalls kcp before
      obtain ⟨tsFlush, updated⟩ := runApi_timer quietCalls kcp
      cases sleep with
      | zero =>
          have busy := ikcpUpdate_updated (runApi kcp calls).1 now
          simp only [polled, scheduled, moved, ikcpUpdate_current]
          generalize ikcpUpdate (runApi kcp calls).1 now = result at busy ⊢
          obtain ⟨trace, current, final⟩ := inductionHypothesis quietRest result.1
            result.1.current (now + 1) _ (Or.inr (rests_of_check busy now))
          exact ⟨congrArg _ trace, current, final⟩
      | succ sleep =>
          have resting : Rests (runApi kcp calls).1 now (sleep + 1) :=
            (rests.resolve_left (Nat.succ_ne_zero sleep)).congr tsFlush updated
          -- the polled block updates without a flush, the other one sleeps
          have waiting := resting.2 0 (Nat.succ_pos sleep)
          have here : now + UInt32.ofNat 0 = now := UInt32.add_zero now
          rw [here] at waiting
          have idle := ikcpUpdate_of_not_due resting.1 waiting
          obtain ⟨trace, current, final⟩ := inductionHypothesis quietRest (runApi kcp calls).1 now
            (now + 1) sleep (Or.inr resting.tail)
          simp only [polled, scheduled, moved, ikcpUpdate_current, idle]
          exact ⟨trace, current, final⟩

/-- Calling `ikcp_update` only when the time given by `ikcp_check` is there emits
the same datagrams at the same clocks as calling it every millisecond, from any
state, for any time and across the wrap-around of the clock, whatever `ikcp_send`,
`ikcp_recv` and the configuring calls do in between, as long as no `ikcp_input`
and no direct `ikcp_flush` comes in between; and both end in the same state,
`current` apart. -/
theorem scheduled_refines (kcp : Kcpcb) (now : UInt32) (ticks : List (List Api))
    (quiet : ∀ calls ∈ ticks, ∀ call ∈ calls, call.Quiet) :
    (scheduled kcp now 0 ticks).2 = (polled kcp now ticks).2 ∧
      ∃ current, (polled kcp now ticks).1 =
        { (scheduled kcp now 0 ticks).1 with current := current } :=
  scheduled_simulates ticks quiet kcp kcp.current now 0 (Or.inl rfl)

/-- A message queued while the block sleeps over the wrap-around of the clock. -/
def sleepingTicks : List (List Api) :=
  [.nodelay 1 10 2 1] :: [.send [104] 1] :: List.replicate 10 []

theorem scheduled_refines_sleeping :
    (scheduled (fresh 1 0) 4294967290 0 sleepingTicks).2 =
        (polled (fresh 1 0) 4294967290 sleepingTicks).2 ∧
      (scheduled (fresh 1 0) 4294967290 0 sleepingTicks).2.map Prod.fst = [4] := by
  have quiet : ∀ calls ∈ sleepingTicks, ∀ call ∈ calls, call.Quiet := by
    simp [sleepingTicks, Api.Quiet]
  have emitted :
      (scheduled (fresh 1 0) 4294967290 0 sleepingTicks).2.map Prod.fst = [4] := by
    decide +kernel
  exact ⟨(scheduled_refines (fresh 1 0) 4294967290 sleepingTicks quiet).1, emitted⟩

end KcpTest.Kcp
