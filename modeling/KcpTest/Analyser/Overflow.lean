import KcpTest.Analyser.Timeouts
import KcpTest.Library.History
import KcpTest.Message.EchoBuffer
import Mathlib.Order.Bounds.Basic

/-!
Contract: the subtractions of indices in `run_recv_msg_thread`.

Owns: the exact value of the difference a message is tested with, the record as
the greatest index received, the indices that can come out of a text, and the
exact condition under which no difference leaves the range of an `int`.

Up to the first difference outside that range the arithmetic is that of the
source; the condition says nothing about what the source does after it.
-/

set_option autoImplicit false

namespace KcpTest.Analyser

open KcpTest.Message KcpTest.Library.History KcpTest.Library.Decimal KcpTest.Library.Pattern

/-- The exact value of `recv_index - last_index.first`, which the successor test
and the gap test both evaluate. The first message is not tested, and neither is
one that throws. -/
def difference (st : Statistics) (post : Post) : Option Int :=
  match post.sendClock, st.indexSeq.getLast? with
  | some _, some last => some (post.index.toInt - last.1.toInt)
  | _, _ => none

/-- The difference in the turn of a message, when the thread gets to it, fits. -/
def DifferenceFits (earlier : List Post) (post : Post) : Prop :=
  (runPosts Statistics.start earlier).2 = none →
    ∀ value ∈ difference (runPosts Statistics.start earlier).1 post, FitsInt value

def DifferencesFit (posts : List Post) : Prop := Along DifferenceFits posts

/-- The data of every message is a number. -/
def Convert (posts : List Post) : Prop := ∀ post ∈ posts, post.sendClock.isSome = true

instance (posts : List Post) : Decidable (Convert posts) :=
  inferInstanceAs (Decidable (∀ post ∈ posts, post.sendClock.isSome = true))

/-- The index is at most 2^31 below that of every earlier message, and less than
2^31 above that of some earlier message, if there is one. -/
def WithinReach (earlier : List Post) (post : Post) : Prop :=
  Convert (earlier ++ [post]) →
    (∀ other ∈ earlier, other.index.toInt - post.index.toInt ≤ 2 ^ 31) ∧
      (earlier ≠ [] → ∃ other ∈ earlier, post.index.toInt - other.index.toInt < 2 ^ 31)

def AllWithinReach (posts : List Post) : Prop := Along WithinReach posts

/-! ### The difference -/

theorem convert_append {earlier later : List Post} :
    Convert (earlier ++ later) ↔ Convert earlier ∧ Convert later :=
  List.forall_mem_append

theorem convert_singleton {post : Post} : Convert [post] ↔ post.sendClock.isSome = true :=
  List.forall_mem_singleton

/-- The thread gets through the messages whose data converts. -/
theorem runPosts_through_iff (st : Statistics) (posts : List Post) :
    (runPosts st posts).2 = none ↔ Convert posts := by
  induction posts generalizing st with
  | nil => simp [runPosts, Convert]
  | cons post posts inductionHypothesis =>
      cases converts : post.sendClock with
      | none =>
          obtain ⟨thrown, threw⟩ := receivePost_of_not_sendClock converts st
          simp [runPosts, threw, Convert, converts]
      | some sendClock =>
          have turn := receivePost_of_sendClock converts st
          simp only [runPosts, turn, inductionHypothesis, Convert, List.forall_mem_cons,
            converts, Option.isSome_some, true_and]

theorem difference_of_remembered {st : Statistics} {record : Option Int32} {post : Post}
    (remembered : Remembered st record) (converts : post.sendClock.isSome = true) :
    difference st post = record.map fun last => post.index.toInt - last.toInt := by
  obtain ⟨sendClock, clock⟩ := Option.isSome_iff_exists.mp converts
  cases record with
  | none =>
      have empty : st.indexSeq = [] := remembered
      simp [difference, clock, empty]
  | some last =>
      obtain ⟨lastClock, queue⟩ := remembered
      simp [difference, clock, queue]

/-- The difference in the turn of a message is that to the record. -/
theorem differenceFits_iff (earlier : List Post) (post : Post) :
    DifferenceFits earlier post ↔ (Convert (earlier ++ [post]) →
      ∀ last ∈ recordOf earlier, FitsInt (post.index.toInt - last.toInt)) := by
  rw [DifferenceFits, runPosts_through_iff, convert_append, convert_singleton, and_imp]
  apply forall_congr'
  intro convert
  have start : Remembered Statistics.start none := rfl
  have remembered : Remembered (runPosts Statistics.start earlier).1 (recordOf earlier) :=
    start.runPosts ((runPosts_through_iff Statistics.start earlier).mpr convert)
  cases converts : post.sendClock with
  | none => simp [difference, converts]
  | some sendClock =>
      rw [difference_of_remembered remembered (by simp [converts])]
      simp

/-! ### Indices from texts -/

/-- A text gives this index, and the handler does not take it for malformed. -/
def Parsed (index : Int32) : Prop :=
  index ≠ -1 ∧ ∃ content fields, parseWithRegex content unparsed = (fields, none) ∧
    fields.index = index

/-- A text that gives this index: the index as an unsigned number. -/
def textOf (index : Int32) : Message.Bytes :=
  ascii "index:" ++ numeral index.toUInt32.toNat ++ ascii "current:" ++ numeral 0 ++
    ascii "retrans:" ++ numeral 1

/-- A 64-bit number narrows to every index. -/
theorem narrow_toUInt32 (index : Int32) : narrow index.toUInt32.toNat = index := by
  rw [narrow, Int64.toInt32_ofNat', ← UInt32.toInt32_ofNat', UInt32.ofNat_toNat,
    Int32.toInt32_toUInt32]

theorem parseWithRegex_textOf (index : Int32) :
    parseWithRegex (textOf index) unparsed =
      ({ index := index, data := numeral 0, retrans := narrow 1 }, none) := by
  have found : search messagePattern (textOf index ++ []) =
      some [numeral index.toUInt32.toNat, numeral 0, numeral 1] :=
    search_keys (.numeral _) (.numeral _) (.numeral _) (by simp)
  rw [List.append_nil] at found
  have small := UInt32.toNat_lt index.toUInt32
  have parsed := parseWithRegex_of_match unparsed found (by rw [value_numeral]; omega)
    (by rw [value_numeral]; omega)
  rw [value_numeral, value_numeral, narrow_toUInt32] at parsed
  exact parsed

/-- The handler passes that index on to the thread. -/
theorem handle_textOf {index : Int32} (notRejected : index ≠ -1) :
    handle (textOf index) = .ok (.sendMessage index (numeral 0)) := by
  have resent : narrow 1 ≠ 0 := by decide
  have parsed := parseWithRegex_textOf index
  simp only [handle, parsed, if_neg notRejected, if_neg resent]

/-- Every `int` but the rejected one can come out of a text. -/
theorem parsed_iff (index : Int32) : Parsed index ↔ index ≠ -1 := by
  constructor
  · intro parsed
    exact parsed.1
  · intro notRejected
    exact ⟨notRejected, textOf index, _, parseWithRegex_textOf index, rfl⟩

/-! ### The record -/

def indices (posts : List Post) : Set Int :=
  (fun post : Post => post.index.toInt) '' {post | post ∈ posts}

theorem indices_concat (earlier : List Post) (post : Post) :
    indices (earlier ++ [post]) = insert post.index.toInt (indices earlier) := by
  have members : {other | other ∈ earlier ++ [post]} = insert post {other | other ∈ earlier} := by
    ext other
    simp [or_comm]
  rw [indices, members, Set.image_insert_eq, indices]

/-- The record is the greatest index, if there is one. -/
def IsRecord (posts : List Post) : Option Int32 → Prop
  | none => posts = []
  | some last => IsGreatest (indices posts) last.toInt

/-- While the differences fit, the record after each message is the greatest. -/
def RecordsGreatest (posts : List Post) : Prop := Convert posts → IsRecord posts (recordOf posts)

theorem recordOf_concat (earlier : List Post) (post : Post) :
    recordOf (earlier ++ [post]) = advance (recordOf earlier) post.index := by
  rw [recordOf, List.foldl_append]
  rfl

/-- A difference that fits decides for the greater index. -/
theorem advance_of_fits {index last : Int32} (fits : FitsInt (index.toInt - last.toInt)) :
    (if 0 ≤ index - last then index else last).toInt = max index.toInt last.toInt := by
  have zero : (0 : Int32).toInt = 0 := by decide
  have ahead : 0 ≤ index - last ↔ last.toInt ≤ index.toInt := by
    rw [Int32.le_iff_toInt_le, sub_toInt fits, zero, Int.sub_nonneg]
  by_cases le : last.toInt ≤ index.toInt
  · rw [if_pos (ahead.mpr le), max_eq_left le]
  · rw [if_neg (mt ahead.mp le), max_eq_right (le_of_not_ge le)]

theorem RecordsGreatest.concat {earlier : List Post} {post : Post}
    (greatest : RecordsGreatest earlier) (fits : DifferenceFits earlier post) :
    RecordsGreatest (earlier ++ [post]) := by
  intro convert
  have before := greatest (convert_append.mp convert).1
  have near := (differenceFits_iff earlier post).mp fits convert
  rw [recordOf_concat]
  cases record : recordOf earlier with
  | none =>
      rw [record] at before
      have empty : earlier = [] := before
      show IsGreatest (indices (earlier ++ [post])) post.index.toInt
      rw [empty, indices_concat]
      simp [indices]
  | some last =>
      rw [record] at before near
      have below : IsGreatest (indices earlier) last.toInt := before
      show IsGreatest (indices (earlier ++ [post]))
        (if 0 ≤ post.index - last then post.index else last).toInt
      rw [advance_of_fits (near last rfl), indices_concat]
      exact below.insert post.index.toInt

/-! ### All sequences -/

/-- The difference to the greatest of some numbers fits when it is not far below
any and not far above all of them. -/
theorem fitsInt_sub_iff {values : Set Int} {last : Int} (greatest : IsGreatest values last)
    (value : Int) :
    FitsInt (value - last) ↔
      (∀ other ∈ values, other - value ≤ 2 ^ 31) ∧ ∃ other ∈ values, value - other < 2 ^ 31 := by
  obtain ⟨member, bound⟩ := greatest
  constructor
  · intro ⟨low, high⟩
    constructor
    · intro other inside
      have := bound inside
      omega
    · exact ⟨last, member, high⟩
  · intro ⟨above, other, inside, below⟩
    have := above last member
    have := bound inside
    constructor <;> omega

theorem differenceFits_iff_withinReach {earlier : List Post} {post : Post}
    (greatest : RecordsGreatest earlier) :
    DifferenceFits earlier post ↔ WithinReach earlier post := by
  rw [differenceFits_iff, WithinReach]
  apply forall_congr'
  intro convert
  have before := greatest (convert_append.mp convert).1
  cases record : recordOf earlier with
  | none =>
      rw [record] at before
      have empty : earlier = [] := before
      simp [empty]
  | some last =>
      rw [record] at before
      have below : IsGreatest (indices earlier) last.toInt := before
      have nonempty : earlier ≠ [] := by
        intro empty
        rw [empty] at below
        simpa [indices] using below.1
      have near := fitsInt_sub_iff below post.index.toInt
      simp only [indices, Set.forall_mem_image, Set.exists_mem_image, Set.mem_ofPred_eq] at near
      simpa [nonempty] using near

theorem RecordsGreatest.nil : RecordsGreatest [] := fun _ => rfl

theorem DifferencesFit.allWithinReach {posts : List Post} (fit : DifferencesFit posts) :
    AllWithinReach posts := by
  refine fit.transfer RecordsGreatest.nil ?_ ?_
  · intro earlier post greatest fits
    exact greatest.concat fits
  · intro earlier post greatest fits
    exact (differenceFits_iff_withinReach greatest).mp fits

theorem AllWithinReach.differencesFit {posts : List Post} (within : AllWithinReach posts) :
    DifferencesFit posts := by
  refine within.transfer RecordsGreatest.nil ?_ ?_
  · intro earlier post greatest reached
    exact greatest.concat ((differenceFits_iff_withinReach greatest).mpr reached)
  · intro earlier post greatest reached
    exact (differenceFits_iff_withinReach greatest).mpr reached

/-- In a sequence whose differences fit, the tests of each message but the first
distinguish its index from the record as plain numbers. -/
theorem DifferencesFit.analysed {posts earlier later : List Post} {post : Post}
    {last lastClock : Int32} {sendClock : Int64} (fit : DifferencesFit posts)
    (split : posts = earlier ++ post :: later)
    (through : (runPosts Statistics.start earlier).2 = none)
    (converts : post.sendClock = some sendClock)
    (recorded : (runPosts Statistics.start earlier).1.indexSeq = [(last, lastClock)]) :
    Analysed (runPosts Statistics.start earlier).1.count post.index sendClock last lastClock
      (receivePost (runPosts Statistics.start earlier).1 post).1 := by
  have tested : difference (runPosts Statistics.start earlier).1 post =
      some (post.index.toInt - last.toInt) := by
    simp [difference, converts, recorded]
  have fits := fit earlier post later split through _ tested
  rw [receivePost_of_sendClock converts]
  exact analyse_effect _ sendClock post.clock recorded fits

/-- Indices from a range of 2^31 numbers are within reach of each other. -/
theorem allWithinReach_of_range {posts : List Post} {low : Int}
    (inside : ∀ post ∈ posts, low ≤ post.index.toInt ∧ post.index.toInt < low + 2 ^ 31) :
    AllWithinReach posts := by
  intro earlier post later split _
  have here := inside post (by simp [split])
  have before : ∀ other ∈ earlier, low ≤ other.index.toInt ∧ other.index.toInt < low + 2 ^ 31 := by
    intro other member
    exact inside other (by simp [split, member])
  constructor
  · intro other member
    have := before other member
    omega
  · intro nonempty
    obtain ⟨other, member⟩ := List.exists_mem_of_ne_nil earlier nonempty
    have := before other member
    exact ⟨other, member, by omega⟩

/-- No difference of indices that are not negative leaves the range. -/
theorem differencesFit_arrivals (arrivals : List Arrival) :
    DifferencesFit (arrivals.map Arrival.toPost) := by
  apply (@allWithinReach_of_range _ 0 ?_).differencesFit
  intro post member
  obtain ⟨arrival, -, rfl⟩ := List.mem_map.mp member
  have := Int32.toInt_lt arrival.index
  exact ⟨arrival.index_nonneg, by simpa using this⟩

/-- For every sequence of messages, every difference fits an `int` if and only if
every index is within reach of the earlier ones. -/
theorem differences_fit_iff (posts : List Post) : DifferencesFit posts ↔ AllWithinReach posts :=
  ⟨DifferencesFit.allWithinReach, AllWithinReach.differencesFit⟩

/-- The least index and then the greatest one. -/
def farApart : List Post := [⟨-2147483648, ascii "0", 0⟩, ⟨2147483647, ascii "0", 0⟩]

theorem not_differences_fit :
    ¬ ∀ posts : List Post, (∀ post ∈ posts, Parsed post.index) → DifferencesFit posts := by
  intro fit
  have parsed : ∀ post ∈ farApart, Parsed post.index := by
    intro post member
    rw [parsed_iff]
    revert post
    decide
  have within := (fit farApart parsed).allWithinReach [⟨-2147483648, ascii "0", 0⟩]
    ⟨2147483647, ascii "0", 0⟩ [] rfl
  obtain ⟨other, member, near⟩ := (within (by decide)).2 (by simp)
  rw [List.mem_singleton.mp member] at near
  exact absurd near (by decide)

end KcpTest.Analyser
