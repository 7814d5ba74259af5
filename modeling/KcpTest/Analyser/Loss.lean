import KcpTest.Analyser.Statistics
import KcpTest.Library.GapTracking

/-!
Contract: the loss analysis of `run_recv_msg_thread`.

Owns: what the printed reports say about lost and late indices, the relation
between the thread and a gap tracker over the integers, and the exactness of the
analysis for every sequence of messages.
-/

set_option autoImplicit false

namespace KcpTest.Analyser

open KcpTest.Library.GapTracking

/-- The indices jumped over by the reports of a lost message. -/
def gapsOf (reports : List Report) : Set Int :=
  { value | ∃ index last clock,
    .lost index last clock ∈ reports ∧ last.toInt < value ∧ value < index.toInt }

/-- The indices reported as out of order. -/
def lateOf (reports : List Report) : Set Int :=
  { value | ∃ index last, .unordered index last ∈ reports ∧ index.toInt = value }

/-- The indices from the first received one to the greatest received one that
were never received. -/
def missing (arrivals : List Arrival) : Set Int :=
  { value | (∃ first ∈ arrivals.head?, first.index.toInt ≤ value) ∧
    (∃ arrival ∈ arrivals, value ≤ arrival.index.toInt) ∧
    ∀ arrival ∈ arrivals, arrival.index.toInt ≠ value }

/-! ### The thread as a tracker -/

/-- The thread remembers and has reported what the tracker has. -/
structure Tracks (st : Statistics) (tracker : Tracker Int) : Prop where
  recorded : ∃ last lastClock, st.indexSeq = [(last, lastClock)] ∧ last.toInt = tracker.record
  nonneg : 0 ≤ tracker.record
  gaps : gapsOf st.reports = tracker.gaps
  late : lateOf st.reports = tracker.late

theorem Tracks.start {arrival : Arrival} {sendClock : Int64}
    (converts : arrival.sendClock = some sendClock) :
    Tracks (Statistics.start.arrive arrival) (Tracker.start arrival.index.toInt) := by
  rw [Statistics.arrive_eq converts]
  have opened := analyse_first Statistics.start.count arrival.index sendClock arrival.clock rfl
  constructor
  · exact ⟨arrival.index, sendClock.toInt32, opened.indexSeq, rfl⟩
  · exact arrival.index_nonneg
  · ext value
    simp only [gapsOf, opened.lost]
    simp [Tracker.start, Statistics.start, Statistics.count]
  · ext value
    simp only [lateOf, opened.unordered]
    simp [Tracker.start, Statistics.start, Statistics.count]

/-- What one message adds to the indices jumped over. -/
theorem Analysed.gapsOf {st st' : Statistics} {index last lastClock : Int32} {sendClock : Int64}
    (analysed : Analysed st index sendClock last lastClock st') (value : Int) :
    value ∈ gapsOf st'.reports ↔
      value ∈ gapsOf st.reports ∨ (last.toInt < value ∧ value < index.toInt) := by
  constructor
  · intro ⟨i, l, c, member, between⟩
    rcases (analysed.lost i l c).mp member with old | ⟨rfl, rfl, -, -⟩
    · exact Or.inl ⟨i, l, c, old, between⟩
    · exact Or.inr between
  · rintro (⟨i, l, c, old, between⟩ | between)
    · exact ⟨i, l, c, (analysed.lost i l c).mpr (Or.inl old), between⟩
    · have beyond : last.toInt + 1 < index.toInt := by
        obtain ⟨after, before⟩ := between
        omega
      exact ⟨index, last, lastClock,
        (analysed.lost _ _ _).mpr (Or.inr ⟨rfl, rfl, rfl, beyond⟩), between⟩

/-- What one message adds to the indices out of order. -/
theorem Analysed.lateOf {st st' : Statistics} {index last lastClock : Int32} {sendClock : Int64}
    (analysed : Analysed st index sendClock last lastClock st') :
    lateOf st'.reports =
      if index.toInt < last.toInt then insert index.toInt (lateOf st.reports)
      else lateOf st.reports := by
  split
  · rename_i below
    ext value
    constructor
    · rintro ⟨i, l, member, rfl⟩
      rcases (analysed.unordered i l).mp member with old | ⟨rfl, -⟩
      · exact Or.inr ⟨i, l, old, rfl⟩
      · exact Or.inl rfl
    · rintro (rfl | ⟨i, l, old, rfl⟩)
      · exact ⟨index, last, (analysed.unordered _ _).mpr (Or.inr ⟨rfl, rfl, below⟩), rfl⟩
      · exact ⟨i, l, (analysed.unordered i l).mpr (Or.inl old), rfl⟩
  · rename_i notBelow
    ext value
    constructor
    · rintro ⟨i, l, member, rfl⟩
      rcases (analysed.unordered i l).mp member with old | ⟨-, -, below⟩
      · exact ⟨i, l, old, rfl⟩
      · exact absurd below notBelow
    · rintro ⟨i, l, old, rfl⟩
      exact ⟨i, l, (analysed.unordered i l).mpr (Or.inl old), rfl⟩

/-- One message of the thread is one observation of the tracker. -/
theorem Tracks.arrive {st : Statistics} {tracker : Tracker Int} (tracks : Tracks st tracker)
    {arrival : Arrival} {sendClock : Int64} (converts : arrival.sendClock = some sendClock) :
    Tracks (st.arrive arrival) (tracker.observe arrival.index.toInt) := by
  obtain ⟨last, lastClock, recorded, same⟩ := tracks.recorded
  rw [Statistics.arrive_eq converts]
  have analysed := analyse_effect st.count sendClock arrival.clock recorded
    (fitsInt_sub arrival.index_nonneg (same ▸ tracks.nonneg))
  have counted : gapsOf st.count.reports = tracker.gaps := tracks.gaps
  have gaps := analysed.gapsOf
  rw [counted] at gaps
  have late := analysed.lateOf
  unfold Tracker.observe
  rw [← same]
  split
  · rename_i below
    refine ⟨⟨last, lastClock, ?_, rfl⟩, same ▸ tracks.nonneg, ?_, ?_⟩
    · rw [analysed.indexSeq, if_pos below]
    · ext value
      refine (gaps value).trans (or_iff_left fun between => ?_)
      omega
    · rw [late, if_pos below]
      exact congrArg _ tracks.late
  · rename_i notBelow
    refine ⟨⟨arrival.index, sendClock.toInt32, ?_, rfl⟩, arrival.index_nonneg, Set.ext gaps, ?_⟩
    · rw [analysed.indexSeq, if_neg notBelow]
    · rw [late, if_neg notBelow]
      exact tracks.late

theorem Tracks.arriveAll {st : Statistics} {tracker : Tracker Int} (tracks : Tracks st tracker)
    {arrivals : List Arrival}
    (convert : ∀ arrival ∈ arrivals, ∃ sendClock, arrival.sendClock = some sendClock) :
    Tracks (arrivals.foldl Statistics.arrive st)
      ((arrivals.map fun arrival => arrival.index.toInt).foldl Tracker.observe tracker) := by
  induction arrivals generalizing st tracker with
  | nil => exact tracks
  | cons arrival arrivals inductionHypothesis =>
      obtain ⟨sendClock, converts⟩ := convert arrival List.mem_cons_self
      exact inductionHypothesis (tracks.arrive converts)
        fun other member => convert other (List.mem_cons_of_mem _ member)

/-! ### Exactness -/

theorem le_foldl_max_iff (value first : Int) (values : List Int) :
    value ≤ values.foldl max first ↔ value ≤ first ∨ ∃ other ∈ values, value ≤ other := by
  induction values generalizing first with
  | nil => simp
  | cons head values inductionHypothesis =>
      rw [List.foldl_cons, inductionHypothesis]
      simp [or_assoc]

/-- For every sequence of messages: the indices between the first one and the
greatest one that were never received are those jumped over and not reported as
out of order. A message whose data does not convert ends the thread, so the
sequence is the messages the thread gets through. -/
theorem loss_analysis_exact (arrivals : List Arrival) :
    missing (handled arrivals) =
      gapsOf (runRecvMsgThread Statistics.start arrivals).1.reports \
        lateOf (runRecvMsgThread Statistics.start arrivals).1.reports := by
  rw [runRecvMsgThread_effect]
  have convert := handled_converts arrivals
  cases received : handled arrivals with
  | nil =>
      ext value
      simp [missing, gapsOf, Statistics.start]
  | cons first rest =>
      rw [received] at convert
      obtain ⟨sendClock, converts⟩ := convert first List.mem_cons_self
      have tracks := (Tracks.start converts).arriveAll
        fun other member => convert other (List.mem_cons_of_mem _ member)
      have exactly := ((Tracker.Exact.start first.index.toInt).observeAll
        (rest.map fun arrival => arrival.index.toInt)).missing
      rw [foldl_observe_first, foldl_observe_record, foldl_observe_seen] at exactly
      rw [List.foldl_cons]
      dsimp only
      rw [tracks.gaps, tracks.late, ← exactly]
      ext value
      simp [missing, le_foldl_max_iff, Tracker.start, eq_comm (a := value)]

end KcpTest.Analyser
