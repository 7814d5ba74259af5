import KcpTest.Kcp.Check
import KcpTest.Kcp.Settings
import KcpTest.Library.Pace

/-!
Contract: how often `ikcp_update` flushes.

Owns: the updates of a run with what is called in between, which of them flush,
and that the flush timer is a periodic timer across the wrap-around of the clock.

Does not own: a direct call of `ikcp_flush`, which the timer knows nothing of.

Clocks are natural numbers that do not go back; KCP sees them modulo `2 ^ 32`.
-/

set_option autoImplicit false

namespace KcpTest.Kcp

open KcpTest.Library KcpTest.Library.Pace

/-! ### Updates and what is between them -/

/-- Calls, and the clock of the update after them. -/
abbrev Tick := List Api × ℕ

/-- The condition under which `ikcp_update` calls `ikcp_flush` (`ikcpUpdate_flushes`). -/
def Flushes (kcp : Kcpcb) (current : UInt32) : Prop := kcp.updated = 0 ∨ FlushDue kcp current

instance (kcp : Kcpcb) (current : UInt32) : Decidable (Flushes kcp current) := by
  unfold Flushes
  infer_instance

/-- An update that does not flush moves the clock, and nothing else. -/
theorem ikcpUpdate_of_not_flushes {kcp : Kcpcb} {current : UInt32}
    (waits : ¬ Flushes kcp current) :
    ikcpUpdate kcp current = ({ kcp with current := current }, []) := by
  obtain ⟨busy, waiting⟩ := not_or.mp waits
  exact ikcpUpdate_of_not_due busy waiting

/-- The clocks of the updates, each with whether it flushes. -/
def flushTrace (kcp : Kcpcb) : List Tick → List (ℕ × Bool)
  | [] => []
  | (calls, clock) :: ticks =>
      let kcp := (runApi kcp calls).1
      (clock, decide (Flushes kcp (UInt32.ofNat clock))) ::
        flushTrace (ikcpUpdate kcp (UInt32.ofNat clock)).1 ticks

/-- The interval in force at every update. -/
def EachInterval (low high : ℕ) (kcp : Kcpcb) : List Tick → Prop
  | [] => True
  | (calls, clock) :: ticks =>
      let kcp := (runApi kcp calls).1
      (low ≤ kcp.interval.toNat ∧ kcp.interval.toNat ≤ high) ∧
        EachInterval low high (ikcpUpdate kcp (UInt32.ofNat clock)).1 ticks

/-! ### Clocks without a wrap-around -/

theorem itimediff_ofNat (later earlier : ℕ) :
    itimediff (UInt32.ofNat later) (UInt32.ofNat earlier) =
      Int.bmod ((later : Int) - earlier) (2 ^ 32) := by
  have value : ∀ n : ℕ, ((UInt32.ofNat n).toBitVec.toNat : Int) = (n : Int) % 2 ^ 32 := fun n => by
    show ((UInt32.ofNat n).toNat : Int) = _
    rw [UInt32.toNat_ofNat']
    omega
  rw [itimediff_eq_distance, Serial.distance_eq_bmod, value, value, Int.bmod_def, Int.bmod_def]
  push_cast
  split <;> split <;> omega

/-! ### The timer -/

/-- The flush timer is due at `due`, which is close to the last clock. -/
structure Timer (kcp : Kcpcb) (last due : ℕ) : Prop where
  busy : kcp.updated ≠ 0
  tsFlush : kcp.tsFlush = UInt32.ofNat due
  close : due ≤ last + 5000

/-- An update before the timer is due does not flush, and one that does not flush
comes before, or half the range of the clock later. -/
theorem Timer.waiting_iff {kcp : Kcpcb} {last due clock : ℕ} (timer : Timer kcp last due)
    (onward : last ≤ clock) :
    (clock < due → ¬ FlushDue kcp (UInt32.ofNat clock)) ∧
      (¬ FlushDue kcp (UInt32.ofNat clock) → clock < due ∨ due + 2 ^ 31 ≤ clock) := by
  have close := timer.close
  have distance := itimediff_ofNat clock due
  rw [Int.bmod_def] at distance
  push_cast at distance
  unfold FlushDue
  rw [timer.tsFlush, distance]
  constructor
  · intro early
    split <;> omega
  · intro waiting
    split at waiting <;> omega

/-- A flush sets the timer one interval behind the due time, or behind its clock. -/
theorem ikcpUpdate_rearms {kcp : Kcpcb} {current : UInt32} (busy : kcp.updated ≠ 0)
    (due : FlushDue kcp current) :
    (ikcpUpdate kcp current).1.tsFlush = current + kcp.interval ∨
      0 ≤ itimediff current kcp.tsFlush ∧
        itimediff current (kcp.tsFlush + kcp.interval) < 0 ∧
        (ikcpUpdate kcp current).1.tsFlush = kcp.tsFlush + kcp.interval := by
  by_cases far : 10000 ≤ itimediff current kcp.tsFlush ∨ itimediff current kcp.tsFlush < -10000
  · left
    simp only [ikcpUpdate, ge_iff_le, if_neg busy, if_pos far, le_refl, if_true]
    rw [(ikcpFlush_keeps _).tsFlush]
    split <;> rfl
  · have expired : 0 ≤ itimediff current kcp.tsFlush := due.resolve_right (not_or.mp far).2
    simp only [ikcpUpdate, ge_iff_le, if_neg busy, if_neg far, if_pos expired]
    rw [(ikcpFlush_keeps _).tsFlush]
    split
    · exact Or.inl rfl
    · rename_i ahead
      exact Or.inr ⟨expired, not_le.mp ahead, rfl⟩

/-- A flush puts the timer ahead of its clock, and at least one interval behind the
time at which it was due. -/
theorem Timer.rearmed {kcp : Kcpcb} {last due clock : ℕ} (timer : Timer kcp last due)
    (onward : last ≤ clock) (interval : 10 ≤ kcp.interval.toNat ∧ kcp.interval.toNat ≤ 5000)
    (flushes : FlushDue kcp (UInt32.ofNat clock)) :
    ∃ due', Timer (ikcpUpdate kcp (UInt32.ofNat clock)).1 clock due' ∧
      due ≤ clock ∧ due + kcp.interval.toNat ≤ due' ∧ clock < due' ∧
      due' ≤ clock + kcp.interval.toNat := by
  have reached : due ≤ clock := by
    by_contra early
    exact (timer.waiting_iff onward).1 (by omega) flushes
  have behind : ∀ time : ℕ,
      UInt32.ofNat time + kcp.interval = UInt32.ofNat (time + kcp.interval.toNat) := fun time => by
    rw [UInt32.ofNat_add, UInt32.ofNat_toNat]
  have busy := ikcpUpdate_updated kcp (UInt32.ofNat clock)
  rcases ikcpUpdate_rearms timer.busy flushes with late | ⟨expired, ahead, kept⟩
  · refine ⟨clock + kcp.interval.toNat, ⟨busy, ?_, ?_⟩, ?_, ?_, ?_, ?_⟩
    · rw [late, behind]
    all_goals omega
  · -- whole ranges of the clock that went by since the timer was due
    obtain ⟨turns, slap, elapsed, small⟩ :
        ∃ turns slap, clock = due + turns * 2 ^ 32 + slap ∧ slap < 2 ^ 32 :=
      ⟨(clock - due) / 2 ^ 32, (clock - due) % 2 ^ 32, by omega, by omega⟩
    rw [timer.tsFlush, itimediff_ofNat, Int.bmod_def] at expired
    rw [timer.tsFlush, behind, itimediff_ofNat, Int.bmod_def] at ahead
    push_cast at expired ahead
    refine ⟨due + turns * 2 ^ 32 + kcp.interval.toNat, ⟨busy, ?_, ?_⟩, ?_, ?_, ?_, ?_⟩
    · rw [kept, timer.tsFlush, behind]
      apply UInt32.toNat_inj.mp
      rw [UInt32.toNat_ofNat', UInt32.toNat_ofNat']
      omega
    all_goals omega

/-! ### Runs -/

theorem runApi_inRange {kcp : Kcpcb} (inRange : InRange kcp) (calls : List Api) :
    InRange (runApi kcp calls).1 := by
  exact @runApi_keeps InRange (fun _ => True) (fun kcp call _ => InRange.run kcp call)
    kcp calls (fun _ _ => trivial) inRange

theorem Timer.congr {kcp kcp' : Kcpcb} {last due : ℕ} (timer : Timer kcp last due)
    (same : kcp'.schedule = kcp.schedule) : Timer kcp' last due := by
  have updated : kcp'.updated = kcp.updated := congrArg Schedule.updated same
  have tsFlush : kcp'.tsFlush = kcp.tsFlush := congrArg Schedule.tsFlush same
  exact ⟨updated ▸ timer.busy, tsFlush.trans timer.tsFlush, timer.close⟩

/-- An update that does not flush leaves the timer where it is. -/
theorem Timer.waited {kcp : Kcpcb} {last due clock : ℕ} (timer : Timer kcp last due)
    (onward : last ≤ clock) (waits : ¬ Flushes kcp (UInt32.ofNat clock)) :
    Timer (ikcpUpdate kcp (UInt32.ofNat clock)).1 clock due := by
  rw [ikcpUpdate_of_not_flushes waits]
  exact ⟨timer.busy, timer.tsFlush, timer.close.trans (Nat.add_le_add_right onward 5000)⟩

section Runs

variable {low high : ℕ}

/-- A started block flushes as a periodic timer fires. -/
theorem Timer.paced {ticks : List Tick} {kcp : Kcpcb} {last due : ℕ} (timer : Timer kcp last due)
    (inRange : InRange kcp) (passive : ∀ tick ∈ ticks, ∀ call ∈ tick.1, call.Passive)
    (onward : (last :: ticks.map Prod.snd).Pairwise (· ≤ ·))
    (intervals : EachInterval low high kcp ticks) :
    Paced low high (2 ^ 31) due (flushTrace kcp ticks) := by
  induction ticks generalizing kcp last due with
  | nil => exact Paced.none due
  | cons tick ticks inductionHypothesis =>
      obtain ⟨calls, clock⟩ := tick
      obtain ⟨⟨slowest, fastest⟩, intervals⟩ := intervals
      obtain ⟨before, onward⟩ := List.pairwise_cons.mp onward
      have later := before clock List.mem_cons_self
      have timer : Timer (runApi kcp calls).1 last due :=
        timer.congr (runApi_schedule kcp (passive _ List.mem_cons_self))
      have inRange := runApi_inRange inRange calls
      have rest := fun tick member => passive tick (List.mem_cons_of_mem _ member)
      have updated := inRange.update (UInt32.ofNat clock)
      have due_iff : Flushes (runApi kcp calls).1 (UInt32.ofNat clock) ↔
          FlushDue (runApi kcp calls).1 (UInt32.ofNat clock) := or_iff_right timer.busy
      rw [flushTrace]
      by_cases flushes : Flushes (runApi kcp calls).1 (UInt32.ofNat clock)
      · obtain ⟨due', rearmed, reached, next, ahead, near⟩ :=
          timer.rearmed later inRange.config.interval (due_iff.mp flushes)
        rw [decide_eq_true flushes]
        exact Paced.fire reached (by omega) ahead (by omega)
          (inductionHypothesis rearmed updated rest onward intervals)
      · rw [decide_eq_false flushes]
        exact Paced.skip ((timer.waiting_iff later).2 fun due => flushes (due_iff.mpr due))
          (inductionHypothesis (timer.waited later flushes) updated rest onward intervals)

/-- The first update of a block flushes, and starts the timer. -/
theorem flushTrace_new {kcp : Kcpcb} (inRange : InRange kcp) (new : kcp.updated = 0)
    {calls : List Api} {start : ℕ} {ticks : List Tick}
    (passive : ∀ tick ∈ (calls, start) :: ticks, ∀ call ∈ tick.1, call.Passive)
    (onward : (start :: ticks.map Prod.snd).Pairwise (· ≤ ·))
    (intervals : EachInterval low high kcp ((calls, start) :: ticks)) :
    Paced low high (2 ^ 31) start (flushTrace kcp ((calls, start) :: ticks)) := by
  obtain ⟨⟨slowest, fastest⟩, intervals⟩ := intervals
  have inRange := runApi_inRange inRange calls
  have same := runApi_schedule kcp (passive _ List.mem_cons_self)
  have untouched : (runApi kcp calls).1.updated = 0 :=
    (congrArg Schedule.updated same).trans new
  have started : Timer { (runApi kcp calls).1 with updated := 1, tsFlush := UInt32.ofNat start }
      start start := ⟨by show (1 : UInt32) ≠ 0; decide, rfl, by omega⟩
  obtain ⟨due', rearmed, reached, next, ahead, near⟩ :=
    started.rearmed (Nat.le_refl start) inRange.config.interval (Or.inl (by rw [itimediff_self]))
  rw [← ikcpUpdate_of_new untouched] at rearmed
  have flushes : Flushes (runApi kcp calls).1 (UInt32.ofNat start) := Or.inl untouched
  -- the interval of the started block is that of the block before it
  change start + (runApi kcp calls).1.interval.toNat ≤ due' at next
  change due' ≤ start + (runApi kcp calls).1.interval.toNat at near
  simp only [flushTrace, decide_eq_true flushes]
  exact Paced.fire reached (by omega) ahead (by omega)
    (rearmed.paced (inRange.update (UInt32.ofNat start))
      (fun tick member => passive tick (List.mem_cons_of_mem _ member)) onward intervals)

/-- Updates at any clocks that do not go back, with any other call but a direct
`ikcp_flush` in between and whatever arrives: the `j`-th flush is no earlier than
`j` of the smallest intervals behind the first update, so a burst of updates never
makes a burst of flushes; between two flushes there is an interval for every flush
in between; and an update flushes once the largest interval has gone by since the
last flush. The clock is the 32-bit one and may wrap around; an update more than
half of its range late may miss that the timer is over. -/
theorem flush_rate (conv : UInt32) (stream : Int32) (ticks : List Tick)
    (passive : ∀ tick ∈ ticks, ∀ call ∈ tick.1, call.Passive)
    (onward : (ticks.map Prod.snd).Pairwise (· ≤ ·))
    (intervals : EachInterval low high (fresh conv stream) ticks) :
    (∀ start ∈ (ticks.map Prod.snd).head?, ∀ j clock,
        (firings (flushTrace (fresh conv stream) ticks))[j]? = some clock →
          start + j * low ≤ clock) ∧
      (∀ i j first second, i < j →
        (firings (flushTrace (fresh conv stream) ticks))[i]? = some first →
        (firings (flushTrace (fresh conv stream) ticks))[j]? = some second →
          first + (j - i - 1) * low < second) ∧
      ∀ before quiet rest flushed clock,
        flushTrace (fresh conv stream) ticks =
          before ++ (flushed, true) :: (quiet ++ (clock, false) :: rest) →
        (∀ look ∈ quiet, look.2 = false) →
          clock < flushed + high ∨ flushed + 2 ^ 31 ≤ clock := by
  cases ticks with
  | nil => simp [flushTrace, firings]
  | cons tick ticks =>
      obtain ⟨calls, first⟩ := tick
      have paced := flushTrace_new (InRange.fresh conv stream) rfl passive onward intervals
      refine ⟨?_, ?_, ?_⟩
      · intro start atHead j clock found
        obtain rfl := Option.some.inj atHead
        exact paced.not_early found
      · intro i j first second order atFirst atSecond
        exact paced.spaced order atFirst atSecond
      · intro before quiet rest flushed clock split skipped
        exact paced.prompt split skipped

/-- Two updates in one millisecond, one on time, one forty minutes late and one just
behind it, across the wrap-around of the clock. -/
def lateTicks : List Tick :=
  [([.nodelay 1 10 2 1, .send [104, 105] 2], 4294967290), ([.input []], 4294967290),
    ([.recv 100], 4294967301), ([.wndsize 64 128], 4297367301), ([], 4297367302)]

theorem flush_rate_late :
    firings (flushTrace (fresh 1 0) lateTicks) = [4294967290, 4294967301, 4297367301] ∧
      ∀ i j first second, i < j →
        (firings (flushTrace (fresh 1 0) lateTicks))[i]? = some first →
        (firings (flushTrace (fresh 1 0) lateTicks))[j]? = some second →
          first + (j - i - 1) * 10 < second :=
  ⟨by decide, (@flush_rate 10 10 1 0 lateTicks (by simp [lateTicks, Api.Passive]) (by decide)
    (by simp only [EachInterval, lateTicks]; decide)).2.1⟩

end Runs

end KcpTest.Kcp
