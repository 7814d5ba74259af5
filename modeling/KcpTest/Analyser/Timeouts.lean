import KcpTest.Analyser.Statistics

/-!
Contract: which late messages `run_recv_msg_thread` reports.

Owns: the recorded index as a function of the indices received, the reports each
message adds, and the exact condition under which a timeout is reported for a
message.

The messages have any index. A difference of indices outside `int` is undefined
in the source and wraps around here.
-/

set_option autoImplicit false

namespace KcpTest.Analyser

open KcpTest.Message

/-! ### Timeouts -/

/-- The report says that a message is late. -/
def Report.isTimeout : Report → Bool
  | .firstLate _ _ _ _ => true
  | .late _ _ _ _ _ => true
  | .resentLate _ => true
  | _ => false

/-- What the turn of a message prints has a timeout. -/
def LogsTimeout (st : Statistics) (post : Post) : Prop :=
  ∃ report ∈ (receivePost st post).1.reports.drop st.reports.length, report.isTimeout = true

/-- For each message the thread gets to and whose data converts, a timeout is
logged exactly when its receive clock is more than 10 after its send clock. -/
def TimeoutsDetected (posts : List Post) : Prop :=
  ∀ earlier post later sendClock, posts = earlier ++ post :: later →
    (runPosts Statistics.start earlier).2 = none → post.sendClock = some sendClock →
    (LogsTimeout (runPosts Statistics.start earlier).1 post ↔ 10 < post.clock - sendClock)

/-- An index replaces the recorded one unless it is behind it. -/
def advance (record : Option Int32) (index : Int32) : Option Int32 :=
  match record with
  | none => some index
  | some last => some (if 0 ≤ index - last then index else last)

/-- The recorded index after these messages. -/
def recordOf (posts : List Post) : Option Int32 :=
  posts.foldl (fun record post => advance record post.index) none

/-- The messages whose round trip is tested: the first one, one with the recorded
index and one with the index after it. -/
def Tested (record : Option Int32) (index : Int32) : Prop :=
  ∀ last ∈ record, index = last ∨ index - last = 1

instance (record : Option Int32) (index : Int32) : Decidable (Tested record index) := by
  unfold Tested
  cases record with
  | none => exact isTrue (by simp)
  | some last =>
      exact decidable_of_iff (index = last ∨ index - last = 1) (by simp)

/-- The low 32 bits of a difference, read as an `int`, are above 10 exactly when
the difference is. -/
def KeepsSide (difference : Int64) : Prop :=
  10 < difference.toInt.bmod (2 ^ 32) ↔ 10 < difference.toInt

/-- A message is either tested, and its difference keeps its side of 10 in an
`int`, or it is not tested, and its difference is at most 10. -/
def Judged (earlier : List Post) (post : Post) (sendClock : Int64) : Prop :=
  if Tested (recordOf earlier) post.index then KeepsSide (post.clock - sendClock)
  else post.clock - sendClock ≤ 10

def AllJudged (posts : List Post) : Prop :=
  ∀ earlier post later sendClock, posts = earlier ++ post :: later →
    (runPosts Statistics.start earlier).2 = none → post.sendClock = some sendClock →
    Judged earlier post sendClock

/-! ### What the tests report -/

/-- The reports added from one state to another, and whether one of them is a
timeout. -/
def Adds (st st' : Statistics) (timeout : Bool) : Prop :=
  ∃ added, st'.reports = st.reports ++ added ∧ added.any Report.isTimeout = timeout

theorem Adds.refl (st : Statistics) : Adds st st false := ⟨[], by simp, rfl⟩

theorem Adds.trans {first second third : Statistics} {before after : Bool}
    (adds : Adds first second before) (more : Adds second third after) :
    Adds first third (before || after) := by
  obtain ⟨added, reports, rfl⟩ := adds
  obtain ⟨others, laterReports, rfl⟩ := more
  exact ⟨added ++ others, by rw [laterReports, reports, List.append_assoc], by simp⟩

theorem Adds.report (st : Statistics) (report : Report) :
    Adds st (st.report report) report.isTimeout :=
  ⟨[report], rfl, by simp⟩

theorem testUnordered_adds (index : Int32) (last : Int32 × Int32) (st : Statistics) :
    Adds st (testUnordered index last st) false := by
  unfold testUnordered
  split
  · exact ⟨[.unordered index last.1], rfl, rfl⟩
  · exact Adds.refl st

theorem testNext_adds (index : Int32) (sendClock clock : Int64) (last : Int32 × Int32)
    (st : Statistics) :
    Adds st (testNext index sendClock clock last st)
      (decide (index - last.1 = 1) && decide (10 < rtt clock sendClock)) := by
  unfold testNext
  by_cases next : index - last.1 = 1
  · by_cases late : rtt clock sendClock > 10
    · rw [if_pos next, if_pos late]
      exact ⟨[.late index clock sendClock (rtt clock sendClock) st.indexSeq.length], rfl,
        by simp [Report.isTimeout, next, late]⟩
    · rw [if_pos next, if_neg late]
      exact ⟨[], by simp [Statistics.replace], by simp [late]⟩
  · rw [if_neg next]
    simpa [next] using Adds.refl st

theorem testResent_adds (index : Int32) (sendClock clock : Int64) (last : Int32 × Int32)
    (st : Statistics) :
    Adds st (testResent index sendClock clock last st)
      (decide (index = last.1) && decide (10 < rtt clock sendClock)) := by
  unfold testResent
  by_cases again : index = last.1
  · by_cases late : rtt clock sendClock > 10
    · simp only [if_pos again, if_pos late]
      exact ⟨[.resentLate (rtt clock sendClock)], rfl, by simp [Report.isTimeout, again, late]⟩
    · simp only [if_pos again, if_neg late]
      exact ⟨[.resent (rtt clock sendClock)], rfl, by simp [Report.isTimeout, late]⟩
  · rw [if_neg again]
    simpa [again] using Adds.refl st

theorem testLost_adds (index : Int32) (sendClock : Int64) (last : Int32 × Int32)
    (st : Statistics) : Adds st (testLost index sendClock last st) false := by
  unfold testLost
  split
  · exact ⟨[.lost index last.1 last.2], rfl, rfl⟩
  · exact Adds.refl st

/-! ### What the tests record -/

/-- The queue holds one pair, with this index. -/
def RecordIs (st : Statistics) (index : Int32) : Prop :=
  ∃ clock, st.indexSeq = [(index, clock)]

theorem RecordIs.replace {st : Statistics} {last : Int32} (record : RecordIs st last)
    (index : Int32) (sendClock : Int64) : RecordIs (st.replace index sendClock) index := by
  obtain ⟨clock, queue⟩ := record
  exact ⟨sendClock.toInt32, by simp [Statistics.replace, queue]⟩

theorem testUnordered_record {st : Statistics} {record : Int32} (index : Int32)
    (last : Int32 × Int32) (before : RecordIs st record) :
    RecordIs (testUnordered index last st) record := by
  unfold testUnordered
  split <;> exact before

theorem testNext_record {st : Statistics} {record : Int32} (index : Int32)
    (sendClock clock : Int64) (last : Int32 × Int32) (before : RecordIs st record) :
    RecordIs (testNext index sendClock clock last st)
      (if index - last.1 = 1 then index else record) := by
  unfold testNext
  split
  · refine RecordIs.replace (?_ : RecordIs _ record) index sendClock
    split <;> exact before
  · exact before

theorem testResent_record {st : Statistics} {record : Int32} (index : Int32)
    (sendClock clock : Int64) (last : Int32 × Int32) (before : RecordIs st record) :
    RecordIs (testResent index sendClock clock last st)
      (if index = last.1 then index else record) := by
  unfold testResent
  split
  · refine RecordIs.replace (?_ : RecordIs _ record) index sendClock
    split <;> exact before
  · exact before

theorem testLost_record {st : Statistics} {record : Int32} (index : Int32) (sendClock : Int64)
    (last : Int32 × Int32) (before : RecordIs st record) :
    RecordIs (testLost index sendClock last st) (if index - last.1 > 1 then index else record) := by
  unfold testLost
  split
  · refine RecordIs.replace (?_ : RecordIs _ record) index sendClock
    exact before
  · exact before

/-- The three tests that replace the record are one: the difference is not
negative. -/
theorem replaced_eq (index last : Int32) :
    (if index - last > 1 then index
      else if index = last then index else if index - last = 1 then index else last) =
      if 0 ≤ index - last then index else last := by
  have one : (1 : Int32).toInt = 1 := by decide
  have zero : (0 : Int32).toInt = 0 := by decide
  by_cases again : index = last
  · simp [again]
  · have notZero : (index - last).toInt ≠ 0 := by
      intro same
      apply again
      have difference := Int32.toInt_inj.mp (same.trans zero.symm)
      rw [Int32.sub_eq_iff_eq_add.mp difference, Int32.zero_add]
    have nonneg : 0 ≤ index - last ↔ index - last > 1 ∨ index - last = 1 := by
      rw [Int32.le_iff_toInt_le, gt_iff_lt, Int32.lt_iff_toInt_lt, ← Int32.toInt_inj, one, zero]
      omega
    rw [if_neg again]
    by_cases beyond : index - last > 1
    · rw [if_pos beyond, if_pos (nonneg.mpr (Or.inl beyond))]
    · by_cases next : index - last = 1
      · rw [if_neg beyond, if_pos next, if_pos (nonneg.mpr (Or.inr next))]
      · rw [if_neg beyond, if_neg next, if_neg]
        intro le
        exact (nonneg.mp le).elim beyond next

/-! ### One message -/

/-- The queue holds what `recordOf` says. -/
def Remembered (st : Statistics) : Option Int32 → Prop
  | none => st.indexSeq = []
  | some last => RecordIs st last

/-- The first message is tested and opens the record. -/
theorem analyse_opens {st : Statistics} (empty : st.indexSeq = []) (index : Int32)
    (sendClock clock : Int64) :
    Adds st (analyse st index sendClock clock) (decide (10 < rtt clock sendClock)) ∧
      RecordIs (analyse st index sendClock clock) index := by
  have back : (st.report (.received index sendClock)).indexSeq.getLast? = none := by
    rw [Statistics.report, empty]
    rfl
  simp only [analyse, back]
  by_cases late : rtt clock sendClock > 10
  · rw [if_pos late]
    refine ⟨?_, sendClock.toInt32, by simp [Statistics.report, empty]⟩
    refine ⟨[.received index sendClock,
      .firstLate index clock sendClock (rtt clock sendClock)], ?_, ?_⟩
    · simp [Statistics.report]
    · simp [Report.isTimeout, late]
  · rw [if_neg late]
    refine ⟨?_, sendClock.toInt32, by simp [Statistics.report, empty]⟩
    exact ⟨[.received index sendClock], rfl, by simp [Report.isTimeout, late]⟩

/-- A later message is tested when it bears the recorded index or the next one. -/
theorem analyse_adds {st : Statistics} {last : Int32} (record : RecordIs st last)
    (index : Int32) (sendClock clock : Int64) :
    Adds st (analyse st index sendClock clock)
        (decide (Tested (some last) index) && decide (10 < rtt clock sendClock)) ∧
      RecordIs (analyse st index sendClock clock)
        (if 0 ≤ index - last then index else last) := by
  obtain ⟨lastClock, queue⟩ := record
  have back : (st.report (.received index sendClock)).indexSeq.getLast? =
      some (last, lastClock) := by
    rw [Statistics.report, queue]
    rfl
  have received := Adds.report st (.received index sendClock)
  simp only [analyse, back]
  generalize start : st.report (.received index sendClock) = first at received
  have record : RecordIs first last := ⟨lastClock, by rw [← start]; exact queue⟩
  constructor
  · have all := ((((received.trans (testUnordered_adds index (last, lastClock) _)).trans
      (testNext_adds index sendClock clock (last, lastClock) _)).trans
      (testResent_adds index sendClock clock (last, lastClock) _)).trans
      (testLost_adds index sendClock (last, lastClock) _))
    have same : (decide (Tested (some last) index) && decide (10 < rtt clock sendClock)) =
        (Report.isTimeout (.received index sendClock) || false ||
          (decide (index - last = 1) && decide (10 < rtt clock sendClock)) ||
          (decide (index = last) && decide (10 < rtt clock sendClock)) || false) := by
      rw [Bool.eq_iff_iff]
      simp only [Tested, Report.isTimeout, Option.mem_def, Option.some.injEq, forall_eq',
        Bool.and_eq_true, decide_eq_true_eq, Bool.or_eq_true, Bool.false_or, Bool.or_false]
      rw [or_comm, or_and_right]
    rw [same]
    exact all
  · rw [← replaced_eq]
    apply testLost_record
    apply testResent_record
    apply testNext_record
    exact testUnordered_record index (last, lastClock) record

/-- A message is reported late when it is tested and its difference is above 10
as an `int`, and it moves the record. -/
theorem analyse_timeout {st : Statistics} {record : Option Int32}
    (remembered : Remembered st record) (index : Int32) (sendClock clock : Int64) :
    Adds st (analyse st index sendClock clock)
        (decide (Tested record index) && decide (10 < rtt clock sendClock)) ∧
      Remembered (analyse st index sendClock clock) (advance record index) := by
  cases record with
  | none =>
      have tested : Tested none index := by simp [Tested]
      obtain ⟨adds, opened⟩ := analyse_opens remembered index sendClock clock
      constructor
      · rw [decide_eq_true tested, Bool.true_and]
        exact adds
      · exact opened
  | some last => exact analyse_adds remembered index sendClock clock

theorem logsTimeout_iff {st : Statistics} {record : Option Int32} {post : Post}
    {sendClock : Int64} (remembered : Remembered st record)
    (converts : post.sendClock = some sendClock) :
    LogsTimeout st post ↔ Tested record post.index ∧ 10 < rtt post.clock sendClock := by
  have counted : Remembered st.count record := remembered
  obtain ⟨⟨added, reports, timeout⟩, -⟩ :=
    analyse_timeout counted post.index sendClock post.clock
  have printed : (receivePost st post).1.reports.drop st.reports.length = added := by
    rw [receivePost_of_sendClock converts]
    show (analyse st.count post.index sendClock post.clock).reports.drop st.reports.length = added
    rw [reports]
    exact List.drop_left
  rw [LogsTimeout, printed, ← List.any_eq_true, timeout]
  simp

/-- The low bits of the difference decide. -/
theorem rtt_late_iff (current sendClock : Int64) :
    10 < rtt current sendClock ↔ 10 < (current - sendClock).toInt.bmod (2 ^ 32) := by
  rw [rtt, Int32.lt_iff_toInt_lt, Int64.toInt_toInt32]
  rfl

theorem late_iff (difference : Int64) : 10 < difference ↔ 10 < difference.toInt := by
  rw [Int64.lt_iff_toInt_lt]
  rfl

/-- A message is reported rightly exactly when it is judged rightly. -/
theorem logsTimeout_iff_late {st : Statistics} {earlier : List Post} {post : Post}
    {sendClock : Int64} (remembered : Remembered st (recordOf earlier))
    (converts : post.sendClock = some sendClock) :
    (LogsTimeout st post ↔ 10 < post.clock - sendClock) ↔ Judged earlier post sendClock := by
  rw [logsTimeout_iff remembered converts, rtt_late_iff, Judged]
  by_cases tested : Tested (recordOf earlier) post.index
  · rw [if_pos tested, KeepsSide, late_iff]
    simp only [tested, true_and]
  · rw [if_neg tested, ← Int64.not_lt]
    simp only [tested, false_and, false_iff]

/-! ### All sequences -/

theorem Remembered.runPosts {st : Statistics} {record : Option Int32} {posts : List Post}
    (remembered : Remembered st record) (through : (Analyser.runPosts st posts).2 = none) :
    Remembered (Analyser.runPosts st posts).1
      (posts.foldl (fun record post => advance record post.index) record) := by
  induction posts generalizing st record with
  | nil => exact remembered
  | cons post posts inductionHypothesis =>
      cases converts : post.sendClock with
      | none =>
          obtain ⟨thrown, threw⟩ := receivePost_of_not_sendClock converts st
          simp [Analyser.runPosts, threw] at through
      | some sendClock =>
          have counted : Remembered st.count record := remembered
          obtain ⟨-, next⟩ := analyse_timeout counted post.index sendClock post.clock
          have turn := receivePost_of_sendClock converts st
          simp only [Analyser.runPosts, turn] at through ⊢
          rw [List.foldl_cons]
          exact inductionHypothesis next through

/-- For every sequence of messages, timeouts are logged for exactly the late ones
if and only if every message is judged rightly. -/
theorem timeouts_detected_iff (posts : List Post) :
    TimeoutsDetected posts ↔ AllJudged posts := by
  have remembered : ∀ earlier, (runPosts Statistics.start earlier).2 = none →
      Remembered (runPosts Statistics.start earlier).1 (recordOf earlier) := by
    intro earlier through
    have start : Remembered Statistics.start none := rfl
    exact start.runPosts through
  constructor
  · intro detected earlier post later sendClock split through converts
    apply (logsTimeout_iff_late (remembered earlier through) converts).mp
    exact detected earlier post later sendClock split through converts
  · intro judged earlier post later sendClock split through converts
    apply (logsTimeout_iff_late (remembered earlier through) converts).mpr
    exact judged earlier post later sendClock split through converts

/-- A message two indices after the first one, a second late. -/
def skipping : List Post := [⟨0, ascii "0", 0⟩, ⟨2, ascii "0", 1000⟩]

theorem not_timeouts_detected : ¬ ∀ posts : List Post, TimeoutsDetected posts := by
  intro detected
  have logged := (detected skipping [⟨0, ascii "0", 0⟩] ⟨2, ascii "0", 1000⟩ [] 0 rfl
    (by decide) (by decide)).mpr (by decide)
  obtain ⟨report, member, isTimeout⟩ := logged
  revert report
  decide

end KcpTest.Analyser
