import KcpTest.Analyser.Counts

/-!
Contract: what `index_seq` holds.

Owns: the message the record stands for, that the queue always holds one pair
with its index, and the exact condition under which the pair also holds its send
clock.

The pair is of type `int`, and the clock has 64 bits.
-/

set_option autoImplicit false

namespace KcpTest.Analyser

/-- The last of the messages with the greatest index. -/
def Holds (arrivals : List Arrival) (holder : Arrival) : Prop :=
  ∃ before after, arrivals = before ++ holder :: after ∧
    (∀ other ∈ before, other.index ≤ holder.index) ∧ ∀ other ∈ after, other.index < holder.index

/-- The queue holds one pair: the greatest index received, and the send clock of
the last message with it. -/
def Recorded (arrivals : List Arrival) (st : Statistics) : Prop :=
  ∃ holder clock sendClock, Holds arrivals holder ∧ st.indexSeq = [(holder.index, clock)] ∧
    holder.sendClock = some sendClock ∧ clock.toInt = sendClock.toInt

/-- After each message the thread gets through, the queue holds that pair. -/
def AlwaysRecorded (arrivals : List Arrival) : Prop :=
  ∀ earlier arrival, earlier ++ [arrival] <+: handled arrivals →
    Recorded (earlier ++ [arrival])
      (runRecvMsgThread Statistics.start (earlier ++ [arrival])).1

/-- Every message that no greater index came before has a send clock that fits
an `int`. -/
def ClocksFit (arrivals : List Arrival) : Prop :=
  ∀ earlier arrival, earlier ++ [arrival] <+: handled arrivals →
    overtaken earlier arrival = false →
    ∀ sendClock, arrival.sendClock = some sendClock →
      -2 ^ 31 ≤ sendClock.toInt ∧ sendClock.toInt < 2 ^ 31

/-! ### The message behind the record -/

theorem overtaken_eq_false_iff {earlier : List Arrival} {arrival : Arrival} :
    overtaken earlier arrival = false ↔ ∀ other ∈ earlier, other.index ≤ arrival.index := by
  simp [overtaken, Int32.not_lt]

/-- A message that no greater index came before becomes the holder. -/
theorem Holds.of_not_overtaken {earlier : List Arrival} {arrival : Arrival}
    (first : overtaken earlier arrival = false) : Holds (earlier ++ [arrival]) arrival := by
  refine ⟨earlier, [], rfl, ?_, ?_⟩
  · exact overtaken_eq_false_iff.mp first
  · simp

/-- A message below the record leaves the holder alone. -/
theorem Holds.append_below {earlier : List Arrival} {holder arrival : Arrival}
    (holds : Holds earlier holder) (below : arrival.index < holder.index) :
    Holds (earlier ++ [arrival]) holder := by
  obtain ⟨before, after, rfl, notGreater, less⟩ := holds
  refine ⟨before, after ++ [arrival], by simp, notGreater, ?_⟩
  intro other member
  rcases List.mem_append.mp member with old | new
  · exact less other old
  · rw [List.mem_singleton.mp new]
    exact below

theorem Holds.greatest {earlier : List Arrival} {holder : Arrival}
    (holds : Holds earlier holder) : ∀ other ∈ earlier, other.index ≤ holder.index := by
  obtain ⟨before, after, rfl, notGreater, less⟩ := holds
  intro other member
  rcases List.mem_append.mp member with old | later
  · exact notGreater other old
  · rcases List.mem_cons.mp later with rfl | new
    · exact Int32.le_refl _
    · exact Int32.le_of_lt (less other new)

/-- The holder of a sequence that ends with a greatest index is its last
message. -/
theorem Holds.eq_last {earlier : List Arrival} {holder arrival : Arrival}
    (holds : Holds (earlier ++ [arrival]) holder) (first : overtaken earlier arrival = false) :
    holder = arrival := by
  obtain ⟨before, after, split, -, less⟩ := holds
  rcases List.eq_nil_or_concat after with rfl | ⟨after, last, rfl⟩
  · exact (List.append_singleton_inj.mp split).2.symm
  · have ends : earlier ++ [arrival] = (before ++ holder :: after) ++ [last] := by
      simpa using split
    obtain ⟨whole, same⟩ := List.append_singleton_inj.mp ends
    have below : arrival.index < holder.index := by
      rw [same]
      exact less last (by simp)
    have notBelow := overtaken_eq_false_iff.mp first holder (by simp [whole])
    exact absurd below (Int32.not_lt.mpr notBelow)

/-! ### The queue -/

/-- The queue holds the index of the holder and the low bits of its clock. -/
def Tells (st : Statistics) (earlier : List Arrival) : Prop :=
  ∃ holder sendClock, Holds earlier holder ∧ holder.sendClock = some sendClock ∧
    st.indexSeq = [(holder.index, sendClock.toInt32)]

theorem Tells.start {arrival : Arrival} {sendClock : Int64}
    (converts : arrival.sendClock = some sendClock) :
    Tells (Statistics.start.arrive arrival) [arrival] := by
  rw [Statistics.arrive_eq converts]
  have opened := analyse_first Statistics.start.count arrival.index sendClock arrival.clock rfl
  exact ⟨arrival, sendClock, @Holds.of_not_overtaken [] arrival rfl, converts,
    opened.indexSeq⟩

/-- One more message keeps the record or becomes it. -/
theorem Tells.arrive {st : Statistics} {earlier : List Arrival} (tells : Tells st earlier)
    {arrival : Arrival} {sendClock : Int64} (converts : arrival.sendClock = some sendClock) :
    Tells (st.arrive arrival) (earlier ++ [arrival]) := by
  obtain ⟨holder, holderClock, holds, holderConverts, recorded⟩ := tells
  rw [Statistics.arrive_eq converts]
  have analysed := analyse_effect st.count sendClock arrival.clock recorded
    (fitsInt_sub arrival.index_nonneg holder.index_nonneg)
  by_cases below : arrival.index.toInt < holder.index.toInt
  · refine ⟨holder, holderClock, ?_, holderConverts, ?_⟩
    · exact holds.append_below (Int32.lt_iff_toInt_lt.mpr below)
    · rw [analysed.indexSeq, if_pos below]
  · refine ⟨arrival, sendClock, ?_, converts, ?_⟩
    · apply Holds.of_not_overtaken
      apply overtaken_eq_false_iff.mpr
      intro other member
      have notGreater := Int32.le_iff_toInt_le.mp (holds.greatest other member)
      rw [Int32.le_iff_toInt_le]
      omega
    · rw [analysed.indexSeq, if_neg below]

theorem Tells.arriveAll {st : Statistics} {earlier : List Arrival} (tells : Tells st earlier)
    {arrivals : List Arrival}
    (convert : ∀ arrival ∈ arrivals, ∃ sendClock, arrival.sendClock = some sendClock) :
    Tells (arrivals.foldl Statistics.arrive st) (earlier ++ arrivals) := by
  induction arrivals generalizing st earlier with
  | nil => simpa using tells
  | cons arrival arrivals inductionHypothesis =>
      obtain ⟨sendClock, converts⟩ := convert arrival List.mem_cons_self
      have rest := inductionHypothesis (tells.arrive converts)
        fun other member => convert other (List.mem_cons_of_mem _ member)
      rw [List.append_assoc] at rest
      exact rest

/-- A thread gets through every part of what it gets through. -/
theorem handled_of_prefix {arrivals part : List Arrival} (inside : part <+: handled arrivals) :
    handled part = part := by
  unfold handled
  rw [List.takeWhile_eq_self_iff]
  intro arrival member
  obtain ⟨sendClock, converts⟩ := handled_converts arrivals arrival (inside.subset member)
  rw [converts]
  rfl

/-- What the queue holds after each message the thread gets through. -/
theorem tells_of_prefix {arrivals earlier : List Arrival} {arrival : Arrival}
    (inside : earlier ++ [arrival] <+: handled arrivals) :
    Tells (runRecvMsgThread Statistics.start (earlier ++ [arrival])).1 (earlier ++ [arrival]) := by
  have convert := handled_converts arrivals
  rw [runRecvMsgThread_effect, handled_of_prefix inside]
  show Tells ((earlier ++ [arrival]).foldl Statistics.arrive Statistics.start) _
  cases earlier with
  | nil =>
      obtain ⟨sendClock, converts⟩ := convert arrival (inside.subset (by simp))
      exact Tells.start converts
  | cons first rest =>
      obtain ⟨sendClock, converts⟩ := convert first (inside.subset (by simp))
      apply (Tells.start converts).arriveAll
      intro other member
      exact convert other (inside.subset (List.mem_cons_of_mem first member))

/-! ### Narrowing -/

/-- A clock survives the narrowing exactly when it fits. -/
theorem toInt32_toInt_iff (clock : Int64) :
    clock.toInt32.toInt = clock.toInt ↔ -2 ^ 31 ≤ clock.toInt ∧ clock.toInt < 2 ^ 31 := by
  rw [Int64.toInt_toInt32]
  constructor
  · intro same
    rw [← same]
    exact ⟨Int.le_bmod (by decide), Int.bmod_lt (by decide)⟩
  · intro ⟨low, high⟩
    exact Int.bmod_eq_of_le low high

/-- A message that becomes the record is what the queue then holds. -/
theorem AlwaysRecorded.clocksFit {arrivals : List Arrival} (recorded : AlwaysRecorded arrivals) :
    ClocksFit arrivals := by
  intro earlier arrival inside first sendClock converts
  obtain ⟨holder, clock, holderClock, holds, queue, holderConverts, same⟩ :=
    recorded earlier arrival inside
  obtain ⟨teller, tellerClock, tells, tellerConverts, told⟩ := tells_of_prefix inside
  rw [holds.eq_last first, converts] at holderConverts
  rw [tells.eq_last first, converts] at tellerConverts
  rw [told] at queue
  have clocks : tellerClock.toInt32 = clock :=
    congrArg Prod.snd (List.singleton_inj.mp queue)
  apply (toInt32_toInt_iff sendClock).mp
  rw [Option.some.inj tellerConverts, clocks, same, ← Option.some.inj holderConverts,
    Option.some.inj tellerConverts]

/-- The holder had no greater index before it when it arrived. -/
theorem ClocksFit.alwaysRecorded {arrivals : List Arrival} (fit : ClocksFit arrivals) :
    AlwaysRecorded arrivals := by
  intro earlier arrival inside
  obtain ⟨holder, sendClock, holds, converts, queue⟩ := tells_of_prefix inside
  refine ⟨holder, sendClock.toInt32, sendClock, holds, queue, converts, ?_⟩
  apply (toInt32_toInt_iff sendClock).mpr
  obtain ⟨before, after, split, notGreater, -⟩ := holds
  have atArrival : before ++ [holder] <+: handled arrivals := by
    refine List.IsPrefix.trans ⟨after, ?_⟩ inside
    simp [split]
  exact fit before holder atArrival (overtaken_eq_false_iff.mpr notGreater) sendClock converts

/-- For every sequence of messages, the queue holds the record after each of them
exactly when the clocks of the messages that become the record fit. -/
theorem always_recorded_iff (arrivals : List Arrival) :
    AlwaysRecorded arrivals ↔ ClocksFit arrivals :=
  ⟨AlwaysRecorded.clocksFit, ClocksFit.alwaysRecorded⟩

/-- A message with a clock of milliseconds since 1970. -/
def timed : Arrival := ⟨⟨0, Message.ascii "1700000000000", 1700000000005⟩, by decide⟩

theorem not_always_recorded :
    ¬ ∀ arrivals : List Arrival,
      (∀ arrival ∈ arrivals, ∃ sendClock, arrival.sendClock = some sendClock ∧
        0 ≤ sendClock.toInt) →
      AlwaysRecorded arrivals := by
  intro recorded
  have parsed : ∀ arrival ∈ [timed], ∃ sendClock, arrival.sendClock = some sendClock ∧
      0 ≤ sendClock.toInt := by
    intro arrival member
    rw [List.mem_singleton.mp member]
    exact ⟨1700000000000, by decide, by decide⟩
  have fit := (recorded [timed] parsed).clocksFit [] timed ⟨[], by rfl⟩ rfl 1700000000000
    (by decide)
  exact absurd fit.2 (by decide)

end KcpTest.Analyser
