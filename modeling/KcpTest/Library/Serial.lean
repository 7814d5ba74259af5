import Mathlib.Data.Int.Basic
import Mathlib.Tactic.Linarith

/-!
Contract: serial-number arithmetic on wrap-around counters.

Owns: the signed distance of two counters of width `w`, the range in which it is
the plain difference of their values, the distance after a step, and the test
against the end of a window.

Does **not** own any protocol; the width and the counters are parameters.
-/

set_option autoImplicit false

namespace KcpTest.Library.Serial

variable {w : Nat}

/-- The distance from `earlier` to `later`, read as a signed number of width
`w`: the usual way to order counters that wrap around. -/
def distance (later earlier : BitVec w) : Int := (later - earlier).toInt

/-- Two counters whose plain difference fits the signed range. -/
def Near (later earlier : BitVec w) : Prop :=
  -(2 ^ w : Int) ≤ 2 * ((later.toNat : Int) - earlier.toNat) ∧
    2 * ((later.toNat : Int) - earlier.toNat) < 2 ^ w

theorem distance_eq_bmod (later earlier : BitVec w) :
    distance later earlier =
      Int.bmod ((later.toNat : Int) - earlier.toNat) (2 ^ w) := by
  rw [distance, BitVec.toInt_sub, BitVec.toInt_eq_toNat_bmod,
    BitVec.toInt_eq_toNat_bmod, Int.bmod_sub_bmod, Int.sub_bmod_bmod]

/-- Within the signed range the distance is the difference of the values. -/
theorem distance_of_near {later earlier : BitVec w} (near : Near later earlier) :
    distance later earlier = (later.toNat : Int) - earlier.toNat := by
  obtain ⟨low, high⟩ := near
  have cast : ((2 ^ w : Nat) : Int) = 2 ^ w := by norm_cast
  rw [distance_eq_bmod]
  apply Int.bmod_eq_of_le <;> rw [cast] <;> omega

/-- Counters that stay below half of the range are always near each other. -/
theorem near_of_lt_half {later earlier : BitVec w} (half : Nat) (range : 2 ^ w = 2 * half)
    (laterLt : later.toNat < half) (earlierLt : earlier.toNat < half) :
    Near later earlier := by
  have cast : ((2 ^ w : Nat) : Int) = 2 ^ w := by norm_cast
  rw [Near, ← cast, range]
  constructor <;> push_cast <;> omega

/-- A step of the earlier counter shortens the distance, up to a wrap-around. -/
theorem distance_add (later earlier step : BitVec w) :
    distance later (earlier + step) =
      Int.bmod (distance later earlier - (step.toNat : Int)) (2 ^ w) := by
  rw [distance, ← BitVec.sub_sub, BitVec.toInt_sub, BitVec.toInt_eq_toNat_bmod step,
    Int.sub_bmod_bmod, distance]

/-- A step of the later counter lengthens it. -/
theorem distance_add_left (later earlier step : BitVec w) :
    distance (later + step) earlier =
      Int.bmod (distance later earlier + (step.toNat : Int)) (2 ^ w) := by
  have shift : later + step - earlier = later - earlier + step := by
    rw [BitVec.sub_eq_add_neg, BitVec.sub_eq_add_neg, BitVec.add_assoc, BitVec.add_assoc,
      BitVec.add_comm step]
  rw [distance, shift, BitVec.toInt_add, BitVec.toInt_eq_toNat_bmod step, Int.add_bmod_bmod,
    distance]

/-- The distance back. -/
theorem distance_swap (later earlier : BitVec w) :
    distance earlier later = Int.bmod (-distance later earlier) (2 ^ w) := by
  have swap : earlier - later = -(later - earlier) := by
    rw [BitVec.neg_sub, BitVec.sub_eq_add_neg, BitVec.add_comm]
  rw [distance, swap, BitVec.toInt_neg, distance]

/-- A counter inside a window is behind the end of the window. -/
theorem distance_add_neg {next base width : BitVec w}
    (inside : (next - base).toNat < width.toNat) (half : 2 * width.toNat ≤ 2 ^ w) :
    distance next (base + width) < 0 := by
  have offset : distance next (base + width) = distance (next - base) width := by
    rw [distance, distance, BitVec.sub_sub]
  have cast : ((2 ^ w : Nat) : Int) = 2 ^ w := by norm_cast
  have near : Near (next - base) width := by
    rw [Near, ← cast]
    constructor <;> omega
  rw [offset, distance_of_near near]
  omega

end KcpTest.Library.Serial
