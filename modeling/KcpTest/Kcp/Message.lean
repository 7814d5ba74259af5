import KcpTest.Kcp.FlushEffect
import Mathlib.Algebra.Order.Floor.Div

/-!
Contract: messages as runs of fragments.

Owns: when a run of fragments spells a message, that `ikcp_send` appends such a
run or nothing, and that `ikcp_recv` takes exactly one such run off the receive
queue.
-/

set_option autoImplicit false

namespace KcpTest.Kcp

/-- What the far end learns of a data segment besides its number. -/
abbrev Fragment := UInt32 × Bytes

def Segment.fragment (seg : Segment) : Fragment := (seg.frg, seg.data)

/-- A run of fragments is a whole message: its numbers count down to zero and
its data concatenate to the message. The bound is `IKCP_WND_RCV`. -/
inductive Spells : Bytes → List Fragment → Prop
  | last (data : Bytes) : Spells data [(0, data)]
  | more {message : Bytes} {fragments : List Fragment} (data : Bytes)
      (rest : Spells message fragments) (short : fragments.length < 128) :
      Spells (data ++ message) ((UInt32.ofNat fragments.length, data) :: fragments)

theorem Spells.length_pos {message : Bytes} {fragments : List Fragment}
    (spells : Spells message fragments) : 0 < fragments.length := by
  cases spells <;> simp

/-- The first number tells how many fragments follow. -/
theorem Spells.head {message : Bytes} {fragments : List Fragment}
    (spells : Spells message fragments) :
    ∃ first rest, fragments = first :: rest ∧ first.1.toNat = rest.length ∧
      rest.length ≤ 127 := by
  cases spells with
  | last => exact ⟨_, [], rfl, rfl, Nat.zero_le _⟩
  | more data rest short =>
      refine ⟨_, _, rfl, ?_, by omega⟩
      simp only [UInt32.toNat_ofNat']
      omega

theorem Spells.numbers_small {message : Bytes} {fragments : List Fragment}
    (spells : Spells message fragments) : ∀ fragment ∈ fragments, fragment.1.toNat < 128 := by
  induction spells with
  | last data => simp
  | more data rest short inductionHypothesis =>
      intro fragment member
      rcases List.mem_cons.mp member with rfl | later
      · simp only [UInt32.toNat_ofNat']
        omega
      · exact inductionHypothesis fragment later

/-! ### Sending -/

theorem fragmentSize_le (mss : Nat) (len : Int) : fragmentSize mss len ≤ mss := by
  unfold fragmentSize
  split <;> omega

@[simp] theorem fragmentLoop_length (mss : Nat) (stream : Int32) (count : Nat) (buffer : Bytes)
    (len : Int) : (fragmentLoop mss stream count buffer len).length = count := by
  induction count generalizing buffer len with
  | zero => rfl
  | succ count inductionHypothesis => simp [fragmentLoop, inductionHypothesis]

theorem fragmentLoop_len_le (mss : Nat) (stream : Int32) (count : Nat) (buffer : Bytes)
    (len : Int) : ∀ seg ∈ fragmentLoop mss stream count buffer len, seg.len ≤ mss := by
  induction count generalizing buffer len with
  | zero => simp [fragmentLoop]
  | succ count inductionHypothesis =>
      intro seg member
      rcases List.mem_cons.mp member with rfl | later
      · have := fragmentSize_le mss len
        simp only [Segment.len, List.length_take]
        omega
      · exact inductionHypothesis _ _ seg later

/-- Enough rounds of the fragment loop spell the first `len` bytes. -/
theorem fragmentLoop_spells (mss count : Nat) (buffer : Bytes) (len : Int) (nonneg : 0 ≤ len)
    (enough : len ≤ (count + 1) * mss) (short : count < 128) :
    Spells (buffer.take len.toNat)
      ((fragmentLoop mss 0 (count + 1) buffer len).map Segment.fragment) := by
  induction count generalizing buffer len with
  | zero =>
      have whole : fragmentSize mss len = len.toNat := by
        unfold fragmentSize
        split <;> omega
      simp only [fragmentLoop, whole]
      exact Spells.last _
  | succ count inductionHypothesis =>
      have size_le := fragmentSize_le mss len
      have rest_le : len - fragmentSize mss len ≤ (count + 1) * mss := by
        unfold fragmentSize
        split
        · push_cast at enough ⊢
          linarith
        · have : (0 : Int) ≤ (count + 1) * mss := by positivity
          omega
      have rest_nonneg : 0 ≤ len - fragmentSize mss len := by
        unfold fragmentSize
        split <;> omega
      have rest := inductionHypothesis (buffer.drop (fragmentSize mss len))
        (len - fragmentSize mss len) rest_nonneg rest_le (by omega)
      have split : buffer.take len.toNat =
          buffer.take (fragmentSize mss len) ++
            (buffer.drop (fragmentSize mss len)).take (len - fragmentSize mss len).toNat := by
        rw [← List.take_add]
        congr 1
        omega
      rw [split, fragmentLoop]
      have step := Spells.more (buffer.take (fragmentSize mss len)) rest (by simp; omega)
      simpa [Segment.fragment] using step

/-- The unsigned division of the source is the plain rounding up. -/
theorem fragmentCount_eq (mss : UInt32) (len : Int32) (pos : 0 < mss.toNat)
    (small : mss.toNat < 2 ^ 31) (nonneg : 0 ≤ len.toInt) :
    fragmentCount mss len.toInt =
      if len.toInt ≤ mss.toNat then 1 else (len.toInt.toNat ⌈/⌉ mss.toNat : Nat) := by
  have mssInt : mss.toInt32.toInt = mss.toNat := by
    change mss.toBitVec.toInt = _
    rw [BitVec.toInt_eq_toNat_of_lt (by simpa using by omega)]
    rfl
  have below := Int32.toInt_lt len
  unfold fragmentCount
  rw [mssInt]
  split
  · rfl
  · rename_i large
    have sum : (UInt32.ofInt len.toInt + mss - 1).toNat = len.toInt.toNat + mss.toNat - 1 := by
      have cast : (UInt32.ofInt len.toInt).toNat = len.toInt.toNat := by
        simp only [UInt32.ofInt, UInt32.toNat_ofNat']
        omega
      have one : (1 : UInt32).toNat = 1 := rfl
      rw [UInt32.toNat_sub_of_le, UInt32.toNat_add, cast]
      · omega
      · rw [UInt32.le_iff_toNat_le, UInt32.toNat_add, cast]
        omega
    change ((UInt32.ofInt len.toInt + mss - 1) / mss).toBitVec.toInt = _
    have quotient : ((UInt32.ofInt len.toInt + mss - 1) / mss).toBitVec.toNat =
        len.toInt.toNat ⌈/⌉ mss.toNat := by
      change ((UInt32.ofInt len.toInt + mss - 1) / mss).toNat = _
      rw [UInt32.toNat_div, sum, Nat.ceilDiv_eq_add_pred_div]
    have quotient_le : len.toInt.toNat ⌈/⌉ mss.toNat ≤ len.toInt.toNat := by
      rw [ceilDiv_le_iff_le_mul pos]
      exact Nat.le_mul_of_pos_left _ pos
    rw [BitVec.toInt_eq_toNat_of_lt (by rw [quotient]; omega), quotient]

/-- There are enough fragments for all bytes. -/
theorem fragmentCount_spec (mss : UInt32) (len : Int32) (pos : 0 < mss.toNat)
    (small : mss.toNat < 2 ^ 31) (nonneg : 0 ≤ len.toInt) :
    1 ≤ fragmentCount mss len.toInt ∧ len.toInt ≤ fragmentCount mss len.toInt * mss.toNat := by
  rw [fragmentCount_eq mss len pos small nonneg]
  split
  · rename_i fits
    omega
  · rename_i large
    have rounded : len.toInt.toNat ≤ len.toInt.toNat ⌈/⌉ mss.toNat * mss.toNat := by
      rw [Nat.mul_comm]
      exact le_smul_ceilDiv pos
    constructor
    · have : 0 < len.toInt.toNat ⌈/⌉ mss.toNat := by
        apply Nat.pos_of_mul_pos_right (b := mss.toNat)
        omega
      omega
    · calc len.toInt = (len.toInt.toNat : Int) := (Int.toNat_of_nonneg nonneg).symm
        _ ≤ _ := by exact_mod_cast rounded

/-- The limit on the fragments is one on the bytes. -/
theorem fragmentCount_lt_iff (mss : UInt32) (len : Int32) (pos : 0 < mss.toNat)
    (small : mss.toNat < 2 ^ 31) (nonneg : 0 ≤ len.toInt) :
    fragmentCount mss len.toInt < ikcpWndRcv.toNat ↔ len.toInt ≤ 127 * mss.toNat := by
  have limit : ikcpWndRcv.toNat = 128 := rfl
  rw [fragmentCount_eq mss len pos small nonneg, limit]
  split
  · omega
  · rename_i large
    have few : len.toInt.toNat ⌈/⌉ mss.toNat ≤ 127 ↔ len.toInt.toNat ≤ mss.toNat * 127 :=
      ceilDiv_le_iff_le_mul pos
    omega

/-- `ikcp_send` with the streaming branches gone. -/
theorem ikcpSend_message (kcp : Kcpcb) (buffer : Bytes) (len : Int32)
    (message : kcp.stream = 0) :
    ikcpSend kcp buffer len =
      if len.toInt < 0 then (-1, kcp)
      else if fragmentCount kcp.mss len.toInt ≥ ikcpWndRcv.toNat then (-2, kcp)
      else
        let count :=
          if fragmentCount kcp.mss len.toInt = 0 then 1 else fragmentCount kcp.mss len.toInt
        ((fragmentSent kcp.mss.toNat count.toNat len.toInt : Int),
          { kcp with
            sndQueue :=
              kcp.sndQueue ++ fragmentLoop kcp.mss.toNat 0 count.toNat buffer len.toInt }) := by
  cases kcp
  simp only at message
  subst message
  simp [ikcpSend]

/-- In message mode `ikcp_send` rejects the message and changes nothing, or
appends a run of segments that spells it. -/
theorem ikcpSend_effect (kcp : Kcpcb) (buffer : Bytes) (len : Int32) (message : kcp.stream = 0)
    (pos : 0 < kcp.mss.toNat) (small : kcp.mss.toNat < 2 ^ 31) :
    ((ikcpSend kcp buffer len).1 < 0 ∧ (ikcpSend kcp buffer len).2 = kcp) ∨
      ∃ segs, 0 ≤ (ikcpSend kcp buffer len).1 ∧
        (ikcpSend kcp buffer len).2 = { kcp with sndQueue := kcp.sndQueue ++ segs } ∧
        Spells (buffer.take len.toInt.toNat) (segs.map Segment.fragment) ∧
        ∀ seg ∈ segs, seg.len ≤ kcp.mss.toNat := by
  rw [ikcpSend_message kcp buffer len message]
  by_cases negative : len.toInt < 0
  · exact Or.inl (by simp [negative])
  · obtain ⟨one_le, covers⟩ := fragmentCount_spec kcp.mss len pos small (by omega)
    rw [if_neg negative]
    by_cases many : fragmentCount kcp.mss len.toInt ≥ ikcpWndRcv.toNat
    · exact Or.inl (by simp [many])
    · right
      have nonzero : fragmentCount kcp.mss len.toInt ≠ 0 := by omega
      obtain ⟨count, counted⟩ : ∃ count, (fragmentCount kcp.mss len.toInt).toNat = count + 1 :=
        ⟨(fragmentCount kcp.mss len.toInt).toNat - 1, by omega⟩
      have few : count < 128 := by
        have : ikcpWndRcv.toNat = 128 := rfl
        omega
      simp only [if_neg many, if_neg nonzero, counted]
      refine ⟨fragmentLoop kcp.mss.toNat 0 (count + 1) buffer len.toInt, ?_, rfl, ?_, ?_⟩
      · exact Int.natCast_nonneg _
      · apply fragmentLoop_spells
        · omega
        · have : ((count : Int) + 1) = fragmentCount kcp.mss len.toInt := by omega
          rw [this]
          exact covers
        · exact few
      · exact fragmentLoop_len_le _ _ _ _ _

/-- The lengths `ikcp_send` accepts in message mode. -/
theorem ikcpSend_nonneg_iff (kcp : Kcpcb) (buffer : Bytes) (len : Int32)
    (message : kcp.stream = 0) (pos : 0 < kcp.mss.toNat) (small : kcp.mss.toNat < 2 ^ 31) :
    0 ≤ (ikcpSend kcp buffer len).1 ↔ 0 ≤ len.toInt ∧ len.toInt ≤ 127 * kcp.mss.toNat := by
  rw [ikcpSend_message kcp buffer len message]
  by_cases negative : len.toInt < 0
  · rw [if_pos negative]
    apply iff_of_false
    · exact (by decide : ¬ (0 : Int) ≤ -1)
    · omega
  · rw [if_neg negative, ← fragmentCount_lt_iff kcp.mss len pos small (by omega)]
    by_cases many : fragmentCount kcp.mss len.toInt ≥ ikcpWndRcv.toNat
    · rw [if_pos many]
      apply iff_of_false
      · exact (by decide : ¬ (0 : Int) ≤ -2)
      · omega
    · rw [if_neg many]
      apply iff_of_true
      · exact Int.natCast_nonneg _
      · omega

/-! ### Receiving -/

/-- Merging takes one spelled run off the queue. -/
theorem mergeFragments_spells {message : Bytes} {fragments more : List Fragment}
    (spells : Spells message fragments) {queue : List Segment}
    (split : queue.map Segment.fragment = fragments ++ more) :
    (mergeFragments queue).1 = message ∧
      (mergeFragments queue).2.map Segment.fragment = more := by
  induction spells generalizing queue with
  | last data =>
      obtain ⟨seg, rest, rfl, isLast, tail⟩ := List.map_eq_cons_iff.mp split
      obtain ⟨frg, sameData⟩ := Prod.mk.inj isLast
      simpa [mergeFragments, frg, sameData] using tail
  | @more message fragments data rest short inductionHypothesis =>
      obtain ⟨seg, queue, rfl, isFirst, tail⟩ := List.map_eq_cons_iff.mp split
      obtain ⟨frg, sameData⟩ := Prod.mk.inj isFirst
      have notLast : seg.frg ≠ 0 := by
        have := rest.length_pos
        rw [frg]
        intro isZero
        have := congrArg UInt32.toNat isZero
        simp only [UInt32.toNat_ofNat', UInt32.toNat_zero] at this
        omega
      obtain ⟨bytes, left⟩ := inductionHypothesis tail
      simp [mergeFragments, notLast, bytes, left, sameData]

/-- When `ikcp_peeksize` finds a message, the whole run of the first message is
in the queue. -/
theorem length_le_of_peeksize {kcp : Kcpcb} (ready : 0 ≤ ikcpPeeksize kcp) {message : Bytes}
    {fragments more : List Fragment} (spells : Spells message fragments)
    (queued : kcp.rcvQueue.map Segment.fragment <+: fragments ++ more) :
    fragments.length ≤ kcp.rcvQueue.length := by
  obtain ⟨first, rest, rfl, counts, few⟩ := spells.head
  cases queue : kcp.rcvQueue with
  | nil => simp [ikcpPeeksize, queue] at ready
  | cons seg tail =>
      rw [queue] at queued
      have isFirst : seg.fragment = first := (List.cons_prefix_cons.mp queued).1
      have frg : seg.frg.toNat = rest.length := by
        rw [← counts, ← isFirst]
        rfl
      by_cases last : seg.frg = 0
      · have : rest.length = 0 := by
          rw [← frg, last]
          rfl
        simp [this]
      · simp only [ikcpPeeksize, queue, if_neg last] at ready
        split at ready
        · simp at ready
        · rename_i enough
          rw [UInt32.toNat_add, frg] at enough
          simp only [Kcpcb.nrcvQue, queue, List.length_cons] at enough ⊢
          have : (1 : UInt32).toNat = 1 := rfl
          omega

end KcpTest.Kcp
