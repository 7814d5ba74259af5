import KcpTest.Analyser.Statistics

/-!
Contract: the counters `run_recv_msg_thread` prints at its end.

Owns: the two relations of a message to the messages received before it, the
number of messages in such a relation, and what the three counters are after
every sequence of messages.
-/

set_option autoImplicit false

namespace KcpTest.Analyser

/-- The index was received before. -/
def repeated (earlier : List Arrival) (arrival : Arrival) : Bool :=
  earlier.any fun other => other.index == arrival.index

/-- A greater index was received before. -/
def overtaken (earlier : List Arrival) (arrival : Arrival) : Bool :=
  earlier.any fun other => decide (arrival.index < other.index)

/-- The number of messages that are in a relation to those before them. -/
def tally (relation : List Arrival → Arrival → Bool) (earlier : List Arrival) :
    List Arrival → Nat
  | [] => 0
  | arrival :: arrivals =>
      (relation earlier arrival).toNat + tally relation (earlier ++ [arrival]) arrivals

/-- The counters tell first copies from repetitions: a repetition is resent
wherever it arrives, and only a first copy is out of order. -/
structure Classified (arrivals : List Arrival) (last : Statistics) : Prop where
  allPost : last.allPostCount = UInt64.ofNat arrivals.length
  resent : last.resentCount = UInt64.ofNat (tally repeated [] arrivals)
  unordered : last.unorderedCount =
    UInt64.ofNat (tally (fun earlier arrival =>
      !repeated earlier arrival && overtaken earlier arrival) [] arrivals)

instance (arrivals : List Arrival) (last : Statistics) : Decidable (Classified arrivals last) :=
  decidable_of_iff
    (last.allPostCount = UInt64.ofNat arrivals.length ∧
      last.resentCount = UInt64.ofNat (tally repeated [] arrivals) ∧
      last.unorderedCount = UInt64.ofNat (tally (fun earlier arrival =>
        !repeated earlier arrival && overtaken earlier arrival) [] arrivals))
    ⟨fun counts => ⟨counts.1, counts.2.1, counts.2.2⟩,
      fun counts => ⟨counts.allPost, counts.resent, counts.unordered⟩⟩

/-- The counters tell the record from what is below it: a repetition is resent
only while no greater index was received, and every overtaken message is out of
order. -/
structure Counted (arrivals : List Arrival) (last : Statistics) : Prop where
  allPost : last.allPostCount = UInt64.ofNat (taken arrivals).length
  resent : last.resentCount =
    UInt64.ofNat (tally (fun earlier arrival =>
      repeated earlier arrival && !overtaken earlier arrival) [] (handled arrivals))
  unordered : last.unorderedCount = UInt64.ofNat (tally overtaken [] (handled arrivals))

/-- Three messages with a clock of zero. The first index comes again after the
second. -/
def repeatedBelowRecord : List Arrival :=
  [⟨⟨1, [48], 0⟩, by decide⟩, ⟨⟨2, [48], 0⟩, by decide⟩, ⟨⟨1, [48], 0⟩, by decide⟩]

theorem not_classified :
    ¬ ∀ arrivals : List Arrival, handled arrivals = arrivals →
      Classified arrivals (runRecvMsgThread Statistics.start arrivals).1 := by
  intro classified
  have counts := classified repeatedBelowRecord (by rfl)
  revert counts
  decide

/-! ### The record stands for the history -/

/-- The recorded index is the greatest one received. -/
structure Remembers (st : Statistics) (earlier : List Arrival) : Prop where
  recorded : ∃ last lastClock, st.indexSeq = [(last, lastClock)] ∧ 0 ≤ last.toInt ∧
    (∃ other ∈ earlier, other.index = last) ∧ ∀ other ∈ earlier, other.index.toInt ≤ last.toInt

theorem overtaken_eq {earlier : List Arrival} {last : Int32}
    (received : ∃ other ∈ earlier, other.index = last)
    (greatest : ∀ other ∈ earlier, other.index.toInt ≤ last.toInt) (arrival : Arrival) :
    overtaken earlier arrival = decide (arrival.index.toInt < last.toInt) := by
  rw [overtaken, Bool.eq_iff_iff]
  simp only [List.any_eq_true, decide_eq_true_eq, Int32.lt_iff_toInt_lt]
  constructor
  · intro ⟨other, member, less⟩
    exact Int.lt_of_lt_of_le less (greatest other member)
  · obtain ⟨other, member, rfl⟩ := received
    exact fun less => ⟨other, member, less⟩

theorem repeated_record_eq {earlier : List Arrival} {last : Int32}
    (received : ∃ other ∈ earlier, other.index = last)
    (greatest : ∀ other ∈ earlier, other.index.toInt ≤ last.toInt) (arrival : Arrival) :
    (repeated earlier arrival && !overtaken earlier arrival) =
      decide (arrival.index.toInt = last.toInt) := by
  rw [overtaken_eq received greatest, repeated, Bool.eq_iff_iff]
  simp only [Bool.and_eq_true, List.any_eq_true, beq_iff_eq, Bool.not_eq_true',
    decide_eq_false_iff_not, decide_eq_true_eq]
  constructor
  · intro ⟨⟨other, member, same⟩, notLess⟩
    have := greatest other member
    rw [same] at this
    omega
  · intro same
    obtain ⟨other, member, rfl⟩ := received
    exact ⟨⟨other, member, (Int32.toInt_inj.mp same).symm⟩, by omega⟩

theorem Remembers.start {arrival : Arrival} {sendClock : Int64}
    (converts : arrival.sendClock = some sendClock) :
    Remembers (Statistics.start.arrive arrival) [arrival] := by
  rw [Statistics.arrive_eq converts]
  have opened := analyse_first Statistics.start.count arrival.index sendClock arrival.clock rfl
  exact ⟨arrival.index, sendClock.toInt32, opened.indexSeq, arrival.index_nonneg,
    ⟨arrival, by simp, rfl⟩, by simp⟩

/-- What one more message makes of the record. -/
theorem Analysed.remembers {st st' : Statistics} {earlier : List Arrival} {arrival : Arrival}
    {sendClock : Int64} {last lastClock : Int32}
    (analysed : Analysed st arrival.index sendClock last lastClock st')
    (nonneg : 0 ≤ last.toInt) (received : ∃ other ∈ earlier, other.index = last)
    (greatest : ∀ other ∈ earlier, other.index.toInt ≤ last.toInt) :
    Remembers st' (earlier ++ [arrival]) := by
  constructor
  rw [analysed.indexSeq]
  by_cases below : arrival.index.toInt < last.toInt
  · rw [if_pos below]
    refine ⟨last, lastClock, rfl, nonneg, ?_, ?_⟩
    · obtain ⟨other, member, same⟩ := received
      exact ⟨other, List.mem_append_left _ member, same⟩
    · simp only [List.mem_append, List.mem_singleton]
      rintro other (member | rfl)
      · exact greatest other member
      · exact Int.le_of_lt below
  · rw [if_neg below]
    refine ⟨arrival.index, sendClock.toInt32, rfl, arrival.index_nonneg,
      ⟨arrival, by simp, rfl⟩, ?_⟩
    simp only [List.mem_append, List.mem_singleton]
    rintro other (member | rfl)
    · have := greatest other member
      omega
    · exact Int.le_refl _

/-- What one more message makes of the record and of the two counters. -/
theorem Remembers.arrive {st : Statistics} {earlier : List Arrival}
    (remembers : Remembers st earlier) {arrival : Arrival} {sendClock : Int64}
    (converts : arrival.sendClock = some sendClock) :
    Remembers (st.arrive arrival) (earlier ++ [arrival]) ∧
      (st.arrive arrival).resentCount = st.resentCount +
        UInt64.ofNat (repeated earlier arrival && !overtaken earlier arrival).toNat ∧
      (st.arrive arrival).unorderedCount = st.unorderedCount +
        UInt64.ofNat (overtaken earlier arrival).toNat := by
  obtain ⟨last, lastClock, recorded, nonneg, received, greatest⟩ := remembers.recorded
  rw [Statistics.arrive_eq converts]
  have analysed := analyse_effect st.count sendClock arrival.clock recorded
    (fitsInt_sub arrival.index_nonneg nonneg)
  refine ⟨analysed.remembers nonneg received greatest, ?_, ?_⟩
  · rw [analysed.resentCount, repeated_record_eq received greatest]
    split
    · rename_i same
      simp [same, Statistics.count]
    · rename_i different
      simp [different, Statistics.count]
  · rw [analysed.unorderedCount, overtaken_eq received greatest]
    split
    · rename_i below
      simp [below, Statistics.count]
    · rename_i notBelow
      simp [notBelow, Statistics.count]

theorem Remembers.arriveAll {st : Statistics} {earlier : List Arrival}
    (remembers : Remembers st earlier) {arrivals : List Arrival}
    (convert : ∀ arrival ∈ arrivals, ∃ sendClock, arrival.sendClock = some sendClock) :
    (arrivals.foldl Statistics.arrive st).resentCount = st.resentCount +
        UInt64.ofNat (tally (fun earlier arrival =>
          repeated earlier arrival && !overtaken earlier arrival) earlier arrivals) ∧
      (arrivals.foldl Statistics.arrive st).unorderedCount = st.unorderedCount +
        UInt64.ofNat (tally overtaken earlier arrivals) := by
  induction arrivals generalizing st earlier with
  | nil => simp [tally]
  | cons arrival arrivals inductionHypothesis =>
      obtain ⟨sendClock, converts⟩ := convert arrival List.mem_cons_self
      obtain ⟨remembers', resent, unordered⟩ := remembers.arrive converts
      obtain ⟨resentAll, unorderedAll⟩ := inductionHypothesis remembers'
        fun other member => convert other (List.mem_cons_of_mem _ member)
      rw [List.foldl_cons]
      constructor
      · rw [resentAll, resent, tally, UInt64.ofNat_add, UInt64.add_assoc]
      · rw [unorderedAll, unordered, tally, UInt64.ofNat_add, UInt64.add_assoc]

/-- For every sequence of messages the counters are these. A message whose data
does not convert is counted and ends the thread. -/
theorem counters_exact (arrivals : List Arrival) :
    Counted arrivals (runRecvMsgThread Statistics.start arrivals).1 := by
  rw [runRecvMsgThread_effect]
  have convert := handled_converts arrivals
  cases received : handled arrivals with
  | nil => exact ⟨UInt64.zero_add _, by rw [received]; rfl, by rw [received]; rfl⟩
  | cons first rest =>
      rw [received] at convert
      obtain ⟨sendClock, converts⟩ := convert first List.mem_cons_self
      obtain ⟨resent, unordered⟩ := (Remembers.start converts).arriveAll
        fun other member => convert other (List.mem_cons_of_mem _ member)
      have opened := analyse_first Statistics.start.count first.index sendClock first.clock rfl
      have arrived := Statistics.arrive_eq converts Statistics.start
      refine ⟨UInt64.zero_add _, ?_, ?_⟩
      · rw [received, List.foldl_cons]
        dsimp only
        rw [resent, arrived, opened.resentCount]
        simp [tally, repeated, Statistics.start, Statistics.count]
      · rw [received, List.foldl_cons]
        dsimp only
        rw [unordered, arrived, opened.unorderedCount]
        simp [tally, overtaken, Statistics.start, Statistics.count]

end KcpTest.Analyser
