import Mathlib.Order.Interval.Set.Basic
import Mathlib.Data.Set.Lattice

/-!
Contract: finding the gaps of a sequence with one remembered value.

Owns: a tracker that keeps only the greatest value observed, notes the interval
it jumps over and the values that arrive below it, and the theorem that the
jumped intervals without the late values are exactly what is missing.
-/

set_option autoImplicit false

namespace KcpTest.Library.GapTracking

universe u

variable {α : Type u} [LinearOrder α]

/-- `record` is what the tracker remembers; `gaps` and `late` are what it has
noted; `seen` is the whole history, which it does not remember. -/
structure Tracker (α : Type u) where
  first : α
  record : α
  gaps : Set α
  late : Set α
  seen : Set α

/-- The tracker after the first value. -/
def Tracker.start (value : α) : Tracker α where
  first := value
  record := value
  gaps := ∅
  late := ∅
  seen := {value}

/-- A value below the record is late; any other becomes the record. -/
def Tracker.observe (tracker : Tracker α) (value : α) : Tracker α :=
  if value < tracker.record then
    { tracker with
      late := insert value tracker.late
      seen := insert value tracker.seen }
  else
    { tracker with
      record := value
      gaps := tracker.gaps ∪ Set.Ioo tracker.record value
      seen := insert value tracker.seen }

/-- What one remembered value suffices for. -/
structure Tracker.Exact (tracker : Tracker α) : Prop where
  first_le : tracker.first ≤ tracker.record
  first_seen : tracker.first ∈ tracker.seen
  record_seen : tracker.record ∈ tracker.seen
  seen_le : ∀ value ∈ tracker.seen, value ≤ tracker.record
  late_seen : tracker.late ⊆ tracker.seen
  inside : tracker.gaps ⊆ Set.Ioo tracker.first tracker.record
  filled : ∀ value ∈ tracker.gaps, value ∈ tracker.seen → value ∈ tracker.late
  covered : ∀ value ∈ Set.Ioo tracker.first tracker.record,
    value ∉ tracker.seen → value ∈ tracker.gaps

theorem Tracker.Exact.start (value : α) : (Tracker.start value).Exact where
  first_le := le_refl _
  first_seen := rfl
  record_seen := rfl
  seen_le := fun _ same => le_of_eq same
  late_seen := Set.empty_subset _
  inside := Set.empty_subset _
  filled := fun _ member => absurd member (Set.notMem_empty _)
  covered := fun _ between => absurd (between.1.trans between.2) (lt_irrefl _)

theorem Tracker.Exact.observe {tracker : Tracker α} (exact' : tracker.Exact) (value : α) :
    (tracker.observe value).Exact := by
  unfold Tracker.observe
  split
  · rename_i below
    exact
      { exact' with
        first_seen := Set.mem_insert_of_mem _ exact'.first_seen
        record_seen := Set.mem_insert_of_mem _ exact'.record_seen
        seen_le := by
          rintro other (rfl | member)
          · exact below.le
          · exact exact'.seen_le other member
        late_seen := Set.insert_subset_insert exact'.late_seen
        filled := by
          rintro other gap (rfl | member)
          · exact Set.mem_insert _ _
          · exact Set.mem_insert_of_mem _ (exact'.filled other gap member)
        covered := fun other between unseen =>
          exact'.covered other between fun member => unseen (Set.mem_insert_of_mem _ member) }
  · rename_i notBelow
    have above : tracker.record ≤ value := not_lt.mp notBelow
    refine
      { first_le := exact'.first_le.trans above
        first_seen := Set.mem_insert_of_mem _ exact'.first_seen
        record_seen := Set.mem_insert _ _
        seen_le := ?_
        late_seen := exact'.late_seen.trans (Set.subset_insert _ _)
        inside := ?_
        filled := ?_
        covered := ?_ }
    · rintro other (rfl | member)
      · exact le_refl _
      · exact (exact'.seen_le other member).trans above
    · rintro other (old | new)
      · exact ⟨(exact'.inside old).1, (exact'.inside old).2.trans_le above⟩
      · exact ⟨exact'.first_le.trans_lt new.1, new.2⟩
    · rintro other (old | new) (rfl | member)
      · exact absurd (exact'.inside old).2 notBelow
      · exact exact'.filled other old member
      · exact absurd new.2 (lt_irrefl _)
      · exact absurd (exact'.seen_le other member) (not_le.mpr new.1)
    · intro other between unseen
      have unseen' : other ∉ tracker.seen := fun member => unseen (Set.mem_insert_of_mem _ member)
      rcases lt_trichotomy other tracker.record with before | same | after
      · exact Or.inl (exact'.covered other ⟨between.1, before⟩ unseen')
      · exact absurd (same ▸ exact'.record_seen) unseen'
      · exact Or.inr ⟨after, between.2⟩

theorem Tracker.Exact.observeAll {tracker : Tracker α} (exact' : tracker.Exact)
    (values : List α) : (values.foldl Tracker.observe tracker).Exact := by
  induction values generalizing tracker with
  | nil => exact exact'
  | cons value values inductionHypothesis => exact inductionHypothesis (exact'.observe value)

/-- The noted gaps without the late values are the values that are missing. -/
theorem Tracker.Exact.missing {tracker : Tracker α} (exact' : tracker.Exact) :
    { value | tracker.first ≤ value ∧ value ≤ tracker.record ∧ value ∉ tracker.seen } =
      tracker.gaps \ tracker.late := by
  ext value
  constructor
  · intro ⟨afterFirst, beforeRecord, unseen⟩
    have notFirst : tracker.first ≠ value := fun same => unseen (same ▸ exact'.first_seen)
    have notRecord : value ≠ tracker.record := fun same => unseen (same ▸ exact'.record_seen)
    exact ⟨exact'.covered value
      ⟨lt_of_le_of_ne afterFirst notFirst, lt_of_le_of_ne beforeRecord notRecord⟩ unseen,
      fun late => unseen (exact'.late_seen late)⟩
  · intro ⟨gap, notLate⟩
    obtain ⟨afterFirst, beforeRecord⟩ := exact'.inside gap
    exact ⟨afterFirst.le, beforeRecord.le, fun seen => notLate (exact'.filled value gap seen)⟩

/-! ### The history in closed form -/

theorem foldl_observe_first (tracker : Tracker α) (values : List α) :
    (values.foldl Tracker.observe tracker).first = tracker.first := by
  induction values generalizing tracker with
  | nil => rfl
  | cons value values inductionHypothesis =>
      rw [List.foldl_cons, inductionHypothesis]
      unfold Tracker.observe
      split <;> rfl

theorem foldl_observe_record (tracker : Tracker α) (values : List α) :
    (values.foldl Tracker.observe tracker).record = values.foldl max tracker.record := by
  induction values generalizing tracker with
  | nil => rfl
  | cons value values inductionHypothesis =>
      rw [List.foldl_cons, List.foldl_cons, inductionHypothesis]
      congr 1
      unfold Tracker.observe
      split
      · rename_i below
        exact (max_eq_left below.le).symm
      · rename_i notBelow
        exact (max_eq_right (not_lt.mp notBelow)).symm

theorem foldl_observe_seen (tracker : Tracker α) (values : List α) :
    (values.foldl Tracker.observe tracker).seen = tracker.seen ∪ { value | value ∈ values } := by
  induction values generalizing tracker with
  | nil => simp
  | cons value values inductionHypothesis =>
      have step : (tracker.observe value).seen = insert value tracker.seen := by
        unfold Tracker.observe
        split <;> rfl
      rw [List.foldl_cons, inductionHypothesis, step]
      ext other
      simp only [Set.mem_union, Set.mem_insert_iff, Set.mem_ofPred_eq, List.mem_cons]
      tauto

end KcpTest.Library.GapTracking
