import KcpTest.Message.Text

/-!
Contract: the analyser thread `run_recv_msg_thread`.

Owns: the queue of recorded indices, the three counters, the reports the thread
prints, and what it does with one message and with a sequence of messages, of
any index and of indices that are not negative.

The clock is read at most once for a message, in the branch that reports a round
trip time; `clock` is that reading.
-/

set_option autoImplicit false

namespace KcpTest.Analyser

open KcpTest.Message

/-- What the thread prints for a message. -/
inductive Report where
  | received (index : Int32) (sendClock : Int64)
  | firstLate (index : Int32) (current sendClock : Int64) (rtt : Int32)
  | unordered (index last : Int32)
  | late (index : Int32) (current sendClock : Int64) (rtt : Int32) (depth : Nat)
  | resentLate (rtt : Int32)
  | resent (rtt : Int32)
  | lost (index last lastClock : Int32)
  deriving DecidableEq

/-- The locals of the thread and `index_seq`, front first. -/
structure Statistics where
  indexSeq : List (Int32 × Int32)
  resentCount : UInt64
  unorderedCount : UInt64
  allPostCount : UInt64
  reports : List Report

def Statistics.start : Statistics where
  indexSeq := []
  resentCount := 0
  unorderedCount := 0
  allPostCount := 0
  reports := []

def Statistics.report (st : Statistics) (report : Report) : Statistics :=
  { st with reports := st.reports ++ [report] }

/-- `pop` and `push` on `index_seq`; the pair narrows the clock to `int`. -/
def Statistics.replace (st : Statistics) (index : Int32) (sendClock : Int64) : Statistics :=
  { st with indexSeq := st.indexSeq.tail ++ [(index, sendClock.toInt32)] }

/-- `all_post_count++`. -/
def Statistics.count (st : Statistics) : Statistics :=
  { st with allPostCount := st.allPostCount + 1 }

/-- `current_time - send_clock` as an `int`. -/
def rtt (current sendClock : Int64) : Int32 := (current - sendClock).toInt32

/-! ### The four tests -/

def testUnordered (index : Int32) (last : Int32 × Int32) (st : Statistics) : Statistics :=
  if index < last.1 then
    { st.report (.unordered index last.1) with unorderedCount := st.unorderedCount + 1 }
  else st

def testNext (index : Int32) (sendClock clock : Int64) (last : Int32 × Int32)
    (st : Statistics) : Statistics :=
  if index - last.1 = 1 then
    let st :=
      if rtt clock sendClock > 10 then
        st.report (.late index clock sendClock (rtt clock sendClock) st.indexSeq.length)
      else st
    st.replace index sendClock
  else st

def testResent (index : Int32) (sendClock clock : Int64) (last : Int32 × Int32)
    (st : Statistics) : Statistics :=
  if index = last.1 then
    let st := { st with resentCount := st.resentCount + 1 }
    let st :=
      if rtt clock sendClock > 10 then st.report (.resentLate (rtt clock sendClock))
      else st.report (.resent (rtt clock sendClock))
    st.replace index sendClock
  else st

def testLost (index : Int32) (sendClock : Int64) (last : Int32 × Int32) (st : Statistics) :
    Statistics :=
  if index - last.1 > 1 then (st.report (.lost index last.1 last.2)).replace index sendClock
  else st

/-! ### Messages -/

/-- The body of the loop after the conversion. `last` is read before the tests
change the queue. -/
def analyse (st : Statistics) (index : Int32) (sendClock clock : Int64) : Statistics :=
  let st := st.report (.received index sendClock)
  match st.indexSeq.getLast? with
  | none =>
      let st := { st with indexSeq := st.indexSeq ++ [(index, sendClock.toInt32)] }
      if rtt clock sendClock > 10 then
        st.report (.firstLate index clock sendClock (rtt clock sendClock))
      else st
  | some last =>
      testLost index sendClock last
        (testResent index sendClock clock last
          (testNext index sendClock clock last (testUnordered index last st)))

/-- A message from the queue, and the clock reading its handling gets. -/
structure Post where
  index : Int32
  data : Message.Bytes
  clock : Int64

/-- `send_clock` is only there when the data converts. -/
def Post.sendClock (post : Post) : Option Int64 := (stoll post.data).toOption

/-- One turn of the loop. The conversion may throw, which ends the process. -/
def receivePost (st : Statistics) (post : Post) : Statistics × Option ConversionError :=
  match stoll post.data with
  | .error thrown => (st.count, some thrown)
  | .ok sendClock => (analyse st.count post.index sendClock post.clock, none)

/-- `run_recv_msg_thread` over a sequence of messages, to its end or to the first
throw. -/
def runPosts (st : Statistics) : List Post → Statistics × Option ConversionError
  | [] => (st, none)
  | post :: posts =>
      match receivePost st post with
      | (st, some thrown) => (st, some thrown)
      | (st, none) => runPosts st posts

theorem receivePost_of_sendClock {post : Post} {sendClock : Int64}
    (converts : post.sendClock = some sendClock) (st : Statistics) :
    receivePost st post = (analyse st.count post.index sendClock post.clock, none) := by
  unfold Post.sendClock at converts
  unfold receivePost
  cases result : stoll post.data with
  | error thrown => simp [result, Except.toOption] at converts
  | ok value =>
      simp only [result, Except.toOption, Option.some.injEq] at converts
      rw [converts]

theorem receivePost_of_not_sendClock {post : Post} (throws : post.sendClock = none)
    (st : Statistics) :
    ∃ thrown, receivePost st post = (st.count, some thrown) := by
  unfold Post.sendClock at throws
  unfold receivePost
  cases result : stoll post.data with
  | error thrown => exact ⟨thrown, rfl⟩
  | ok value => simp [result, Except.toOption] at throws

/-! ### Messages with an index that is not negative -/

structure Arrival extends Post where
  index_nonneg : 0 ≤ index.toInt

/-- `run_recv_msg_thread` over such messages. -/
def runRecvMsgThread (st : Statistics) (arrivals : List Arrival) :
    Statistics × Option ConversionError :=
  runPosts st (arrivals.map Arrival.toPost)

/-- The messages the thread gets through. -/
def handled (arrivals : List Arrival) : List Arrival :=
  arrivals.takeWhile fun arrival => arrival.sendClock.isSome

theorem handled_converts (arrivals : List Arrival) :
    ∀ arrival ∈ handled arrivals, ∃ sendClock, arrival.sendClock = some sendClock := by
  intro arrival member
  apply Option.isSome_iff_exists.mp
  exact List.mem_takeWhile_imp (p := fun other : Arrival => other.sendClock.isSome) member

/-- The messages the thread takes from the queue: those it gets through and the
one that throws, if there is one. -/
def taken (arrivals : List Arrival) : List Arrival :=
  arrivals.take ((handled arrivals).length + 1)

/-- What a handled message makes of the statistics. -/
def Statistics.arrive (st : Statistics) (arrival : Arrival) : Statistics :=
  (receivePost st arrival.toPost).1

theorem Statistics.arrive_eq {arrival : Arrival} {sendClock : Int64}
    (converts : arrival.sendClock = some sendClock) (st : Statistics) :
    st.arrive arrival = analyse st.count arrival.index sendClock arrival.clock := by
  rw [Statistics.arrive, receivePost_of_sendClock converts]

theorem testUnordered_allPostCount (index : Int32) (last : Int32 × Int32) (st : Statistics) :
    (testUnordered index last st).allPostCount = st.allPostCount := by
  unfold testUnordered
  split <;> rfl

theorem testNext_allPostCount (index : Int32) (sendClock clock : Int64) (last : Int32 × Int32)
    (st : Statistics) :
    (testNext index sendClock clock last st).allPostCount = st.allPostCount := by
  unfold testNext
  split
  · dsimp only [Statistics.replace]
    split <;> rfl
  · rfl

theorem testResent_allPostCount (index : Int32) (sendClock clock : Int64) (last : Int32 × Int32)
    (st : Statistics) :
    (testResent index sendClock clock last st).allPostCount = st.allPostCount := by
  unfold testResent
  split
  · dsimp only [Statistics.replace]
    split <;> rfl
  · rfl

theorem testLost_allPostCount (index : Int32) (sendClock : Int64) (last : Int32 × Int32)
    (st : Statistics) : (testLost index sendClock last st).allPostCount = st.allPostCount := by
  unfold testLost
  split <;> rfl

theorem analyse_allPostCount (st : Statistics) (index : Int32) (sendClock clock : Int64) :
    (analyse st index sendClock clock).allPostCount = st.allPostCount := by
  simp only [analyse]
  split
  · split <;> rfl
  · rw [testLost_allPostCount, testResent_allPostCount, testNext_allPostCount,
      testUnordered_allPostCount]
    rfl

/-- The thread is a fold over the messages it gets through; the message that
throws is only counted. -/
theorem runRecvMsgThread_effect (st : Statistics) (arrivals : List Arrival) :
    (runRecvMsgThread st arrivals).1 =
      { (handled arrivals).foldl Statistics.arrive st with
        allPostCount := st.allPostCount + UInt64.ofNat (taken arrivals).length } := by
  unfold runRecvMsgThread
  induction arrivals generalizing st with
  | nil => simp [runPosts, handled, taken]
  | cons arrival arrivals inductionHypothesis =>
      cases converts : arrival.sendClock with
      | none =>
          obtain ⟨thrown, result⟩ := receivePost_of_not_sendClock converts st
          simp [runPosts, result, handled, taken, converts, Statistics.count]
      | some sendClock =>
          have result := receivePost_of_sendClock converts st
          have same : st.arrive arrival = (receivePost st arrival.toPost).1 := rfl
          have shape : taken (arrival :: arrivals) = arrival :: taken arrivals := by
            simp [taken, handled, converts]
          have length : UInt64.ofNat (taken (arrival :: arrivals)).length =
              1 + UInt64.ofNat (taken arrivals).length := by
            rw [shape, List.length_cons, UInt64.ofNat_add, UInt64.add_comm]
            rfl
          have rest := inductionHypothesis (st.arrive arrival)
          rw [same, result] at rest
          rw [List.map_cons, runPosts, result, rest, length, ← UInt64.add_assoc]
          simp [handled, converts, same, result, analyse_allPostCount, Statistics.count]

/-! ### The tests on plain numbers -/

/-- The range of an `int`. -/
def FitsInt (value : Int) : Prop := -2 ^ 31 ≤ value ∧ value < 2 ^ 31

/-- Indices that are not negative subtract without overflow. -/
theorem fitsInt_sub {index last : Int32} (nonneg : 0 ≤ index.toInt)
    (lastNonneg : 0 ≤ last.toInt) : FitsInt (index.toInt - last.toInt) := by
  have := Int32.toInt_lt index
  have := Int32.toInt_lt last
  constructor <;> omega

theorem sub_toInt {index last : Int32} (fits : FitsInt (index.toInt - last.toInt)) :
    (index - last).toInt = index.toInt - last.toInt := by
  rw [Int32.toInt_sub]
  exact Int.bmod_eq_of_le fits.1 fits.2

theorem sub_eq_one_iff {index last : Int32} (fits : FitsInt (index.toInt - last.toInt)) :
    index - last = 1 ↔ index.toInt = last.toInt + 1 := by
  have one : (1 : Int32).toInt = 1 := by decide
  rw [← Int32.toInt_inj, sub_toInt fits, one]
  omega

theorem one_lt_sub_iff {index last : Int32} (fits : FitsInt (index.toInt - last.toInt)) :
    index - last > 1 ↔ last.toInt + 1 < index.toInt := by
  have one : (1 : Int32).toInt = 1 := by decide
  rw [gt_iff_lt, Int32.lt_iff_toInt_lt, sub_toInt fits, one]
  omega

/-- What the first message makes of the statistics. -/
structure Opened (st : Statistics) (index : Int32) (sendClock : Int64) (st' : Statistics) :
    Prop where
  indexSeq : st'.indexSeq = [(index, sendClock.toInt32)]
  resentCount : st'.resentCount = st.resentCount
  unorderedCount : st'.unorderedCount = st.unorderedCount
  unordered : ∀ i l, .unordered i l ∈ st'.reports ↔ .unordered i l ∈ st.reports
  lost : ∀ i l c, .lost i l c ∈ st'.reports ↔ .lost i l c ∈ st.reports

/-- The first message is neither late nor a loss. -/
theorem analyse_first (st : Statistics) (index : Int32) (sendClock clock : Int64)
    (empty : st.indexSeq = []) :
    Opened st index sendClock (analyse st index sendClock clock) := by
  have back : (st.report (.received index sendClock)).indexSeq.getLast? = none := by
    rw [Statistics.report, empty]
    rfl
  simp only [analyse, back]
  split <;> constructor <;> simp [Statistics.report, empty]

/-- What a message makes of statistics with one recorded index, up to the
reports that concern only times. -/
structure Analysed (st : Statistics) (index : Int32) (sendClock : Int64)
    (last lastClock : Int32) (st' : Statistics) : Prop where
  indexSeq : st'.indexSeq =
    [if index.toInt < last.toInt then (last, lastClock) else (index, sendClock.toInt32)]
  resentCount : st'.resentCount =
    if index.toInt = last.toInt then st.resentCount + 1 else st.resentCount
  unorderedCount : st'.unorderedCount =
    if index.toInt < last.toInt then st.unorderedCount + 1 else st.unorderedCount
  unordered : ∀ i l, .unordered i l ∈ st'.reports ↔ .unordered i l ∈ st.reports ∨
    (i = index ∧ l = last ∧ index.toInt < last.toInt)
  lost : ∀ i l c, .lost i l c ∈ st'.reports ↔ .lost i l c ∈ st.reports ∨
    (i = index ∧ l = last ∧ c = lastClock ∧ last.toInt + 1 < index.toInt)

/-- When the difference fits, the four tests are one case distinction: below the
record, the record again, the next index, or beyond it. -/
theorem analyse_effect (st : Statistics) {index lastIndex lastClock : Int32}
    (sendClock clock : Int64) (recorded : st.indexSeq = [(lastIndex, lastClock)])
    (fits : FitsInt (index.toInt - lastIndex.toInt)) :
    Analysed st index sendClock lastIndex lastClock (analyse st index sendClock clock) := by
  have below := Int32.lt_iff_toInt_lt (x := index) (y := lastIndex)
  have again := Int32.toInt_inj (x := index) (y := lastIndex)
  have next := sub_eq_one_iff fits
  have beyond := one_lt_sub_iff fits
  have back : (st.report (.received index sendClock)).indexSeq.getLast? =
      some (lastIndex, lastClock) := by
    rw [Statistics.report, recorded]
    rfl
  simp only [analyse, back]
  rcases Int.lt_trichotomy index.toInt lastIndex.toInt with less | same | more
  · -- below the record: only the first test fires
    have notNext : ¬ index - lastIndex = 1 := by rw [next]; omega
    have notAgain : ¬ index = lastIndex := by rw [← again]; omega
    have notBeyond : ¬ index - lastIndex > 1 := by rw [beyond]; omega
    simp only [testUnordered, testNext, testResent, testLost, if_pos (below.mpr less),
      if_neg notNext, if_neg notAgain, if_neg notBeyond]
    have notEqual : ¬ index.toInt = lastIndex.toInt := by omega
    have notAbove : ¬ lastIndex.toInt + 1 < index.toInt := by omega
    constructor <;> simp [Statistics.report, recorded, less, notEqual, notAbove]
  · -- the record again: only the third test fires
    have notBelow : ¬ index < lastIndex := by rw [below]; omega
    have notNext : ¬ index - lastIndex = 1 := by rw [next]; omega
    have notBeyond : ¬ index - lastIndex > 1 := by rw [beyond]; omega
    simp only [testUnordered, testNext, testResent, testLost, if_neg notBelow,
      if_neg notNext, if_pos (again.mp same), if_neg notBeyond]
    have notAbove : ¬ lastIndex.toInt + 1 < lastIndex.toInt := by omega
    split <;> constructor <;> simp [Statistics.report, Statistics.replace, recorded, same, notAbove]
  · have notBelow : ¬ index < lastIndex := by rw [below]; omega
    have notAgain : ¬ index = lastIndex := by rw [← again]; omega
    have notLess : ¬ index.toInt < lastIndex.toInt := by omega
    have notEqual : ¬ index.toInt = lastIndex.toInt := by omega
    by_cases isNext : index.toInt = lastIndex.toInt + 1
    · -- the next index: only the second test fires
      have notBeyond : ¬ index - lastIndex > 1 := by rw [beyond]; omega
      have notAbove : ¬ lastIndex.toInt + 1 < index.toInt := by omega
      simp only [testUnordered, testNext, testResent, testLost, if_neg notBelow,
        if_pos (next.mpr isNext), if_neg notAgain, if_neg notBeyond]
      split <;> constructor <;>
        simp [Statistics.report, Statistics.replace, recorded, notLess, notEqual, notAbove]
    · -- beyond the next index: only the fourth test fires
      have notNext : ¬ index - lastIndex = 1 := by rw [next]; exact isNext
      have isBeyond : lastIndex.toInt + 1 < index.toInt := by omega
      simp only [testUnordered, testNext, testResent, testLost, if_neg notBelow,
        if_neg notNext, if_neg notAgain, if_pos (beyond.mpr isBeyond)]
      constructor <;>
        simp [Statistics.report, Statistics.replace, recorded, notLess, notEqual, isBeyond]

end KcpTest.Analyser
