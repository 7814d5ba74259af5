import KcpTest.Library.Serial
import Mathlib.Data.BitVec
import Mathlib.Data.List.Range

/-!
Contract: windows of serial numbers.

Owns: the offset of a counter from a base, the signed distance of two counters
in terms of their offsets, and lists of counters that go up inside a window:
what dropping, appending and moving the base do to them, and how long they are.

Does **not** own any protocol; the width and the counters are parameters.
-/

set_option autoImplicit false

namespace KcpTest.Library.Serial

variable {w : Nat}

/-! ### Offsets -/

/-- How many steps `counter` is ahead of `base`, going round. -/
def offset (base counter : BitVec w) : Nat := (counter - base).toNat

@[simp] theorem offset_self (base : BitVec w) : offset base base = 0 := by
  simp [offset]

theorem offset_inj {base first second : BitVec w}
    (same : offset base first = offset base second) : first = second := by
  have difference : first - base = second - base := BitVec.eq_of_toNat_eq same
  calc first = first - base + base := (BitVec.sub_add_cancel first base).symm
    _ = second - base + base := by rw [difference]
    _ = second := BitVec.sub_add_cancel second base

/-- Seen from a base further on, every counter behind it is nearer. -/
theorem offset_rebase {base base' counter : BitVec w}
    (passed : offset base base' ≤ offset base counter) :
    offset base' counter = offset base counter - offset base base' := by
  have split : counter - base' = (counter - base) - (base' - base) :=
    (sub_sub_sub_cancel_right counter base' base).symm
  have fits : (base' - base) ≤ (counter - base) := passed
  rw [offset, split, BitVec.toNat_sub_of_le fits]
  rfl

theorem offset_add {base step : BitVec w} : offset base (base + step) = step.toNat := by
  rw [offset, BitVec.add_comm, BitVec.add_sub_cancel]

theorem offset_succ {base counter : BitVec w} (room : offset base counter + 1 < 2 ^ w) :
    offset base (counter + 1) = offset base counter + 1 := by
  have shift : counter + 1 - base = counter - base + 1 := add_sub_right_comm counter 1 base
  have one : (1 : BitVec w).toNat = 1 := by
    show 1 % 2 ^ w = 1
    exact Nat.mod_eq_of_lt (by omega)
  unfold offset at *
  rw [shift, BitVec.toNat_add, one, Nat.mod_eq_of_lt room]

/-- The distance of two counters is the difference of their offsets when that
fits the signed range. -/
theorem distance_eq_offset {base later earlier : BitVec w}
    (low : -(2 ^ w : Int) ≤ 2 * ((offset base later : Int) - offset base earlier))
    (high : 2 * ((offset base later : Int) - offset base earlier) < 2 ^ w) :
    distance later earlier = (offset base later : Int) - offset base earlier := by
  have shift : distance later earlier = distance (later - base) (earlier - base) := by
    rw [distance, distance, sub_sub_sub_cancel_right]
  rw [shift, distance_of_near ⟨low, high⟩]
  rfl

/-- A counter that is not behind the base is in the nearer half of the range. -/
theorem two_mul_offset_lt {base counter : BitVec w} (ahead : 0 ≤ distance counter base) :
    2 * offset base counter < 2 ^ w := by
  by_contra further
  have far : ¬ 2 * (counter - base).toNat < 2 ^ w := further
  have negative : (counter - base).toInt < 0 := by
    have small := (counter - base).isLt
    rw [BitVec.toInt_eq_toNat_cond, if_neg far]
    omega
  exact absurd ahead (not_le.mpr negative)

/-! ### Counters in a window -/

/-- The counters go up from `base` and stay within `width` of it. -/
structure InWindow (base : BitVec w) (width : Nat) (counters : List (BitVec w)) : Prop where
  ordered : counters.Pairwise fun first second => offset base first < offset base second
  inside : ∀ counter ∈ counters, offset base counter < width

section InWindow

variable {base : BitVec w} {width : Nat} {counters : List (BitVec w)}

theorem InWindow.nil (base : BitVec w) (width : Nat) : InWindow base width [] where
  ordered := List.Pairwise.nil
  inside := by simp

theorem InWindow.sublist (inWindow : InWindow base width counters)
    {fewer : List (BitVec w)} (sub : fewer.Sublist counters) : InWindow base width fewer where
  ordered := inWindow.ordered.sublist sub
  inside := fun counter member => inWindow.inside counter (sub.subset member)

theorem InWindow.widen (inWindow : InWindow base width counters) {width' : Nat}
    (wider : width ≤ width') : InWindow base width' counters where
  ordered := inWindow.ordered
  inside := fun counter member => Nat.lt_of_lt_of_le (inWindow.inside counter member) wider

/-- The end of the window joins the counters, and the window grows past it. -/
theorem InWindow.push (inWindow : InWindow base width counters) {counter : BitVec w}
    (atEnd : offset base counter = width) : InWindow base (width + 1) (counters ++ [counter]) where
  ordered := by
    refine List.pairwise_append.mpr ⟨inWindow.ordered, List.pairwise_singleton _ _, ?_⟩
    intro first member second isLast
    rw [List.mem_singleton.mp isLast, atEnd]
    exact inWindow.inside first member
  inside := by
    intro other member
    rcases List.mem_append.mp member with old | isLast
    · exact Nat.lt_succ_of_lt (inWindow.inside other old)
    · rw [List.mem_singleton.mp isLast, atEnd]
      exact Nat.lt_succ_self width

/-- Moving the base forward to a place that all counters have reached. -/
theorem InWindow.rebase (inWindow : InWindow base width counters) {base' : BitVec w}
    (passed : ∀ counter ∈ counters, offset base base' ≤ offset base counter) :
    InWindow base' (width - offset base base') counters where
  ordered := by
    refine inWindow.ordered.imp_of_mem ?_
    intro first second firstIn secondIn before
    rw [offset_rebase (passed first firstIn), offset_rebase (passed second secondIn)]
    have := passed first firstIn
    omega
  inside := by
    intro counter member
    have reached := passed counter member
    have within := inWindow.inside counter member
    rw [offset_rebase reached]
    omega

/-- No counter is before the first one. -/
theorem InWindow.head_le {counter : BitVec w}
    (inWindow : InWindow base width (counter :: counters)) :
    ∀ other ∈ counter :: counters, offset base counter ≤ offset base other := by
  intro other member
  rcases List.mem_cons.mp member with rfl | later
  · exact Nat.le_refl _
  · exact Nat.le_of_lt ((List.pairwise_cons.mp inWindow.ordered).1 other later)

/-- A window from its first counter on. -/
theorem InWindow.from_head {counter : BitVec w}
    (inWindow : InWindow base width (counter :: counters)) :
    InWindow counter (width - offset base counter) (counter :: counters) :=
  inWindow.rebase inWindow.head_le

/-- Without its first counter, a window may start one step later. -/
theorem InWindow.advance {counter : BitVec w}
    (inWindow : InWindow base width (counter :: counters)) :
    InWindow (base + 1) width counters := by
  obtain ⟨after, -⟩ := List.pairwise_cons.mp inWindow.ordered
  have step : offset base (base + 1) ≤ 1 := by
    rw [offset_add]
    exact Nat.mod_le 1 (2 ^ w)
  have passed : ∀ other ∈ counters, offset base (base + 1) ≤ offset base other := by
    intro other member
    have beyond := after other member
    omega
  exact ((inWindow.sublist (List.sublist_cons_self _ _)).rebase passed).widen (Nat.sub_le _ _)

/-- A window has room for as many counters as it is wide. -/
theorem InWindow.length_le (inWindow : InWindow base width counters) :
    counters.length ≤ width := by
  have distinct : (counters.map (offset base)).Nodup := by
    refine List.pairwise_map.mpr (inWindow.ordered.imp ?_)
    intro first second before
    exact Nat.ne_of_lt before
  have within : counters.map (offset base) ⊆ List.range width := by
    intro place member
    obtain ⟨counter, inList, rfl⟩ := List.mem_map.mp member
    exact List.mem_range.mpr (inWindow.inside counter inList)
  have short := (List.subperm_of_subset distinct within).length_le
  rwa [List.length_map, List.length_range] at short

end InWindow

end KcpTest.Library.Serial
