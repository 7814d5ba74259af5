import Mathlib.Data.Set.Insert
import Mathlib.Data.List.Basic
import Mathlib.Logic.Relation

/-!
Contract: one direction of a retransmission link over a lossy network.

Owns: the abstract sender and receiver of a sliding-window protocol with
selective and cumulative acknowledgements, the steps either side may take, the
invariant they keep, and the two facts a user relies on: what has been taken is
a prefix of what was accepted, and nothing accepted is ever forgotten before it
is taken.

Does **not** own sequence-number width, window sizes, timers or a wire format.
Everything ever emitted stays in `packets`, `acks` and `floors`; a network that
drops, duplicates, delays and reorders then only chooses which of these a step
reads.
-/

set_option autoImplicit false

namespace KcpTest.Library.SlidingWindow

universe u

/-- The joint state of a sender and a receiver for one direction. A value's
position in `accepted` is its sequence number. -/
structure Link (α : Type u) where
  accepted : List α
  sent : ℕ
  unacked : Set (ℕ × α)
  packets : Set (ℕ × α)
  acks : Set ℕ
  floors : Set ℕ
  buffered : Set (ℕ × α)
  next : ℕ
  queue : List α
  taken : List α

namespace Link

variable {α : Type u}

/-- Nothing accepted, nothing emitted. -/
def start : Link α where
  accepted := []
  sent := 0
  unacked := ∅
  packets := ∅
  acks := ∅
  floors := ∅
  buffered := ∅
  next := 0
  queue := []
  taken := []

/-- The receiver has the value at `position`, in order or out of order. -/
def Holds (link : Link α) (position : ℕ) : Prop :=
  position < link.next ∨ ∃ value, (position, value) ∈ link.buffered

/-- Some acknowledgement on the wire covers `position`. -/
def Covered (link : Link α) (position : ℕ) : Prop :=
  position ∈ link.acks ∨ ∃ floor ∈ link.floors, position < floor

end Link

variable {α : Type u}

/-- What the sending side may do. -/
inductive SenderStep : Link α → Link α → Prop
  | accept (link : Link α) (values : List α) :
      SenderStep link { link with accepted := link.accepted ++ values }
  | enter (link : Link α) (value : α) (waiting : link.accepted[link.sent]? = some value) :
      SenderStep link
        { link with
          sent := link.sent + 1
          unacked := insert (link.sent, value) link.unacked }
  | emit (link : Link α) (batch : Set (ℕ × α)) (kept : batch ⊆ link.unacked) :
      SenderStep link { link with packets := link.packets ∪ batch }
  | release (link : Link α) (kept : Set (ℕ × α)) (subset : kept ⊆ link.unacked)
      (covered : ∀ entry ∈ link.unacked, entry ∉ kept → link.Covered entry.1) :
      SenderStep link { link with unacked := kept }

/-- What the receiving side may do. -/
inductive ReceiverStep : Link α → Link α → Prop
  | store (link : Link α) (position : ℕ) (value : α)
      (arrived : (position, value) ∈ link.packets) (fresh : link.next ≤ position) :
      ReceiverStep link { link with buffered := insert (position, value) link.buffered }
  | acknowledge (link : Link α) (position : ℕ) (holds : link.Holds position) :
      ReceiverStep link { link with acks := insert position link.acks }
  | announce (link : Link α) :
      ReceiverStep link { link with floors := insert link.next link.floors }
  | advance (link : Link α) (value : α) (ready : (link.next, value) ∈ link.buffered) :
      ReceiverStep link
        { link with
          buffered := link.buffered \ {(link.next, value)}
          next := link.next + 1
          queue := link.queue ++ [value] }
  | take (link : Link α) (front back : List α) (split : link.queue = front ++ back) :
      ReceiverStep link { link with queue := back, taken := link.taken ++ front }

/-- Any number of sender steps. -/
abbrev SenderRun : Link α → Link α → Prop := Relation.ReflTransGen SenderStep

/-- Any number of receiver steps. -/
abbrev ReceiverRun : Link α → Link α → Prop := Relation.ReflTransGen ReceiverStep

/-- What every reachable link satisfies. -/
structure Sound (link : Link α) : Prop where
  sent_le : link.sent ≤ link.accepted.length
  next_le : link.next ≤ link.sent
  unacked : ∀ entry ∈ link.unacked,
    entry.1 < link.sent ∧ link.accepted[entry.1]? = some entry.2
  packets : ∀ entry ∈ link.packets,
    entry.1 < link.sent ∧ link.accepted[entry.1]? = some entry.2
  buffered : ∀ entry ∈ link.buffered,
    link.next ≤ entry.1 ∧ entry.1 < link.sent ∧ link.accepted[entry.1]? = some entry.2
  inOrder : link.taken ++ link.queue = link.accepted.take link.next
  acks : ∀ position ∈ link.acks, link.Holds position
  floors : ∀ floor ∈ link.floors, floor ≤ link.next
  retained : ∀ position, position < link.sent →
    (∃ value, (position, value) ∈ link.unacked) ∨ link.Holds position

theorem Sound.start : Sound (Link.start : Link α) where
  sent_le := Nat.le_refl _
  next_le := Nat.le_refl _
  unacked := by simp [Link.start]
  packets := by simp [Link.start]
  buffered := by simp [Link.start]
  inOrder := rfl
  acks := by simp [Link.start]
  floors := by simp [Link.start]
  retained := by simp [Link.start]

/-! ### One step keeps the invariant -/

private theorem getElem?_append_of_some {values more : List α} {position : ℕ} {value : α}
    (found : values[position]? = some value) :
    (values ++ more)[position]? = some value := by
  have below : position < values.length := (List.getElem?_eq_some_iff.mp found).1
  rw [List.getElem?_append_left below, found]

/-- A covered position has reached the receiver: this is why a sender may
release what an acknowledgement covers. -/
theorem Sound.holds_of_covered {link : Link α} (sound : Sound link) {position : ℕ}
    (covered : link.Covered position) : link.Holds position := by
  rcases covered with selective | ⟨floor, member, below⟩
  · exact sound.acks position selective
  · exact Or.inl (Nat.lt_of_lt_of_le below (sound.floors floor member))

theorem Sound.senderStep {link link' : Link α} (sound : Sound link)
    (step : SenderStep link link') : Sound link' := by
  cases step with
  | accept values =>
      refine { sound with
        sent_le := ?_
        unacked := ?_
        packets := ?_
        buffered := ?_
        inOrder := ?_ }
      · have := sound.sent_le
        simp only [List.length_append]
        omega
      · intro entry member
        obtain ⟨below, found⟩ := sound.unacked entry member
        exact ⟨below, getElem?_append_of_some found⟩
      · intro entry member
        obtain ⟨below, found⟩ := sound.packets entry member
        exact ⟨below, getElem?_append_of_some found⟩
      · intro entry member
        obtain ⟨fresh, below, found⟩ := sound.buffered entry member
        exact ⟨fresh, below, getElem?_append_of_some found⟩
      · rw [sound.inOrder, List.take_append_of_le_length]
        exact Nat.le_trans sound.next_le sound.sent_le
  | enter value waiting =>
      have below : link.sent < link.accepted.length :=
        (List.getElem?_eq_some_iff.mp waiting).1
      refine { sound with
        sent_le := below
        next_le := Nat.le_succ_of_le sound.next_le
        unacked := ?_
        packets := ?_
        buffered := ?_
        retained := ?_ }
      · rintro entry (rfl | member)
        · exact ⟨Nat.lt_succ_self _, waiting⟩
        · obtain ⟨bound, found⟩ := sound.unacked entry member
          exact ⟨Nat.lt_succ_of_lt bound, found⟩
      · intro entry member
        obtain ⟨bound, found⟩ := sound.packets entry member
        exact ⟨Nat.lt_succ_of_lt bound, found⟩
      · intro entry member
        obtain ⟨fresh, bound, found⟩ := sound.buffered entry member
        exact ⟨fresh, Nat.lt_succ_of_lt bound, found⟩
      · intro position bound
        rcases Nat.lt_succ_iff_lt_or_eq.mp bound with earlier | rfl
        · rcases sound.retained position earlier with ⟨kept, member⟩ | holds
          · exact Or.inl ⟨kept, Set.mem_insert_of_mem _ member⟩
          · exact Or.inr holds
        · exact Or.inl ⟨value, Set.mem_insert _ _⟩
  | emit batch kept =>
      refine { sound with packets := ?_ }
      rintro entry (old | new)
      · exact sound.packets entry old
      · exact sound.unacked entry (kept new)
  | release kept subset covered =>
      refine { sound with unacked := fun entry member => sound.unacked entry (subset member),
                          retained := ?_ }
      intro position bound
      rcases sound.retained position bound with ⟨value, member⟩ | holds
      · by_cases still : (position, value) ∈ kept
        · exact Or.inl ⟨value, still⟩
        · exact Or.inr (sound.holds_of_covered (covered _ member still))
      · exact Or.inr holds

private theorem holds_advance {link : Link α} {position : ℕ} {value : α} (queue : List α)
    (holds : link.Holds position) :
    Link.Holds { link with
      buffered := link.buffered \ {(link.next, value)}
      next := link.next + 1
      queue := queue } position := by
  rcases holds with below | ⟨other, member⟩
  · exact Or.inl (Nat.lt_succ_of_lt below)
  · by_cases atNext : position = link.next
    · exact Or.inl (by simp [atNext])
    · exact Or.inr ⟨other, member, by simp [atNext]⟩

theorem Sound.receiverStep {link link' : Link α} (sound : Sound link)
    (step : ReceiverStep link link') : Sound link' := by
  cases step with
  | store position value arrived fresh =>
      have grows : ∀ other, link.Holds other →
          Link.Holds { link with buffered := insert (position, value) link.buffered } other := by
        rintro other (below | ⟨kept, member⟩)
        · exact Or.inl below
        · exact Or.inr ⟨kept, Set.mem_insert_of_mem _ member⟩
      refine { sound with buffered := ?_, acks := ?_, retained := ?_ }
      · rintro entry (rfl | member)
        · exact ⟨fresh, sound.packets _ arrived⟩
        · exact sound.buffered entry member
      · exact fun other member => grows other (sound.acks other member)
      · exact fun other bound => (sound.retained other bound).imp_right (grows other)
  | acknowledge position holds =>
      refine { sound with acks := ?_ }
      rintro other (rfl | member)
      · exact holds
      · exact sound.acks other member
  | announce =>
      refine { sound with floors := ?_ }
      rintro floor (rfl | member)
      · exact Nat.le_refl _
      · exact sound.floors floor member
  | advance value ready =>
      obtain ⟨-, below, found⟩ := sound.buffered _ ready
      refine { sound with
        next_le := below
        buffered := ?_
        inOrder := ?_
        acks := fun other member => holds_advance _ (sound.acks other member)
        floors := fun floor member => Nat.le_succ_of_le (sound.floors floor member)
        retained := fun other bound =>
          (sound.retained other bound).imp_right (holds_advance _) }
      · intro ⟨other, kept⟩ ⟨member, different⟩
        obtain ⟨fresh, bound, at'⟩ := sound.buffered _ member
        refine ⟨?_, bound, at'⟩
        rcases Nat.lt_or_eq_of_le fresh with later | same
        · exact later
        · subst same
          have equal : kept = value := Option.some.inj (at'.symm.trans found)
          exact absurd (by simp [equal]) different
      · have within : link.next < link.accepted.length :=
          (List.getElem?_eq_some_iff.mp found).1
        rw [← List.append_assoc, sound.inOrder, List.take_add_one, found]
        rfl
  | take front back split =>
      refine { sound with inOrder := ?_ }
      have inOrder := sound.inOrder
      rw [split, ← List.append_assoc] at inOrder
      exact inOrder

/-! ### Whole runs -/

theorem Sound.senderRun {link link' : Link α} (sound : Sound link)
    (run : SenderRun link link') : Sound link' := by
  induction run with
  | refl => exact sound
  | tail _ step inductionHypothesis => exact inductionHypothesis.senderStep step

theorem Sound.receiverRun {link link' : Link α} (sound : Sound link)
    (run : ReceiverRun link link') : Sound link' := by
  induction run with
  | refl => exact sound
  | tail _ step inductionHypothesis => exact inductionHypothesis.receiverStep step

/-- What a sender step leaves alone on the receiving side. -/
structure SameReceiver (link link' : Link α) : Prop where
  next : link'.next = link.next
  buffered : link'.buffered = link.buffered
  queue : link'.queue = link.queue
  taken : link'.taken = link.taken
  acks : link'.acks = link.acks
  floors : link'.floors = link.floors
  packets : link.packets ⊆ link'.packets
  sent : link.sent ≤ link'.sent

/-- What a receiver step leaves alone on the sending side. -/
structure SameSender (link link' : Link α) : Prop where
  accepted : link'.accepted = link.accepted
  sent : link'.sent = link.sent
  unacked : link'.unacked = link.unacked
  packets : link'.packets = link.packets
  acks : link.acks ⊆ link'.acks
  floors : link.floors ⊆ link'.floors

theorem SameReceiver.of_run {link link' : Link α} (run : SenderRun link link') :
    SameReceiver link link' := by
  induction run with
  | refl => exact ⟨rfl, rfl, rfl, rfl, rfl, rfl, Set.Subset.rfl, Nat.le_refl _⟩
  | tail _ step inductionHypothesis =>
      cases step with
      | accept values => exact { inductionHypothesis with }
      | enter value waiting =>
          exact { inductionHypothesis with
            sent := Nat.le_succ_of_le inductionHypothesis.sent }
      | emit batch kept =>
          exact { inductionHypothesis with
            packets := inductionHypothesis.packets.trans Set.subset_union_left }
      | release kept subset covered => exact { inductionHypothesis with }

theorem SameSender.of_run {link link' : Link α} (run : ReceiverRun link link') :
    SameSender link link' := by
  induction run with
  | refl => exact ⟨rfl, rfl, rfl, rfl, Set.Subset.rfl, Set.Subset.rfl⟩
  | tail _ step inductionHypothesis =>
      cases step with
      | store position value arrived fresh => exact { inductionHypothesis with }
      | acknowledge position holds =>
          exact { inductionHypothesis with
            acks := inductionHypothesis.acks.trans (Set.subset_insert _ _) }
      | announce =>
          exact { inductionHypothesis with
            floors := inductionHypothesis.floors.trans (Set.subset_insert _ _) }
      | advance value ready => exact { inductionHypothesis with }
      | take front back split => exact { inductionHypothesis with }

/-- A receiver does not go back. -/
theorem next_le_of_run {link link' : Link α} (run : ReceiverRun link link') :
    link.next ≤ link'.next := by
  induction run with
  | refl => exact Nat.le_refl _
  | tail _ step inductionHypothesis =>
      cases step with
      | advance value ready => exact Nat.le_succ_of_le inductionHypothesis
      | _ => exact inductionHypothesis

/-- What a receiver holds it never loses. -/
theorem Link.Holds.of_run {link link' : Link α} {position : ℕ} (holds : link.Holds position)
    (run : ReceiverRun link link') : link'.Holds position := by
  induction run with
  | refl => exact holds
  | tail _ step inductionHypothesis =>
      cases step with
      | store other value arrived fresh =>
          exact inductionHypothesis.imp_right fun ⟨kept, member⟩ =>
            ⟨kept, Set.mem_insert_of_mem _ member⟩
      | acknowledge other holds => exact inductionHypothesis
      | announce => exact inductionHypothesis
      | advance value ready => exact holds_advance _ inductionHypothesis
      | take front back split => exact inductionHypothesis

/-! ### Batches of steps -/

/-- The values at the positions from `start` on. -/
def numberFrom (start : ℕ) : List α → Set (ℕ × α)
  | [] => ∅
  | value :: values => insert (start, value) (numberFrom (start + 1) values)

/-- A sender admits any number of waiting values, one after the other. -/
theorem SenderRun.admitAll (link : Link α) {values rest : List α}
    (waiting : link.accepted.drop link.sent = values ++ rest) :
    SenderRun link
      { link with
        sent := link.sent + values.length
        unacked := link.unacked ∪ numberFrom link.sent values } := by
  induction values generalizing link with
  | nil => simpa [numberFrom] using Relation.ReflTransGen.refl
  | cons value values inductionHypothesis =>
      have found : link.accepted[link.sent]? = some value := by
        have := congrArg List.head? waiting
        simpa [List.head?_drop] using this
      have left : link.accepted.drop (link.sent + 1) = values ++ rest := by
        rw [← List.tail_drop, waiting]
        rfl
      have more := inductionHypothesis
        { link with sent := link.sent + 1, unacked := insert (link.sent, value) link.unacked } left
      refine Relation.ReflTransGen.head (SenderStep.enter link value found) ?_
      have count : link.sent + 1 + values.length = link.sent + (value :: values).length := by
        simp only [List.length_cons]
        omega
      simpa [numberFrom, count, Set.union_insert, Set.insert_union] using more

/-- A receiver acknowledges any set of positions that it holds. -/
theorem ReceiverRun.acknowledgeAll (link : Link α) (positions : List ℕ)
    (holds : ∀ position ∈ positions, link.Holds position) :
    ∃ acks, ReceiverRun link { link with acks := acks } ∧ link.acks ⊆ acks ∧
      ∀ position ∈ positions, position ∈ acks := by
  induction positions generalizing link with
  | nil => exact ⟨link.acks, Relation.ReflTransGen.refl, Set.Subset.rfl, by simp⟩
  | cons position positions inductionHypothesis =>
      obtain ⟨acks, run, grows, covers⟩ := inductionHypothesis
        { link with acks := insert position link.acks }
        fun other member => holds other (List.mem_cons_of_mem _ member)
      refine ⟨acks, ?_, (Set.subset_insert _ _).trans grows, ?_⟩
      · exact Relation.ReflTransGen.head
          (ReceiverStep.acknowledge link position (holds position List.mem_cons_self)) run
      · intro other member
        rcases List.mem_cons.mp member with rfl | later
        · exact grows (Set.mem_insert _ _)
        · exact covers other later

/-! ### What a user relies on -/

/-- The values taken and then those ready to be taken are a prefix of the values
accepted. -/
theorem Sound.delivered_prefix {link : Link α} (sound : Sound link) :
    link.taken ++ link.queue <+: link.accepted := by
  rw [sound.inOrder]
  exact List.take_prefix _ _

theorem Sound.taken_length_add {link : Link α} (sound : Sound link) :
    link.taken.length + link.queue.length = link.next := by
  have := congrArg List.length sound.inOrder
  have := sound.next_le
  have := sound.sent_le
  simp only [List.length_append, List.length_take] at *
  omega

/-- An accepted value that has not been taken is still waiting at the sender,
retained for retransmission, buffered out of order or queued in order. -/
theorem Sound.not_lost {link : Link α} (sound : Sound link) {position : ℕ} {value : α}
    (accepted : link.accepted[position]? = some value)
    (untaken : link.taken.length ≤ position) :
    link.sent ≤ position ∨ (position, value) ∈ link.unacked ∨
      (position, value) ∈ link.buffered ∨
      link.queue[position - link.taken.length]? = some value := by
  rcases Nat.lt_or_ge position link.sent with below | waiting
  · right
    have unique : ∀ other, link.accepted[position]? = some other → other = value :=
      fun other found => Option.some.inj (found.symm.trans accepted)
    rcases sound.retained position below with ⟨other, member⟩ | early | ⟨other, member⟩
    · rw [unique other (sound.unacked _ member).2] at member
      exact Or.inl member
    · right
      right
      have queued : (link.taken ++ link.queue)[position]? = some value := by
        rw [sound.inOrder, List.getElem?_take_of_lt early, accepted]
      rwa [List.getElem?_append_right untaken] at queued
    · rw [unique other (sound.buffered _ member).2.2] at member
      exact Or.inr (Or.inl member)
  · exact Or.inl waiting

end KcpTest.Library.SlidingWindow
