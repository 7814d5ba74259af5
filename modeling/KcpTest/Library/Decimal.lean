import Mathlib.Algebra.Group.Nat.Defs
import Mathlib.Algebra.Ring.Int.Defs

/-!
Contract: decimal numerals as byte strings.

Owns: the value of a digit run with any number of leading zeros, the numeral of
a number, and the facts that relate the two.
-/

set_option autoImplicit false

namespace KcpTest.Library.Decimal

/-- The bytes `0` to `9`. -/
def isDigit (c : UInt8) : Bool := 48 ≤ c && c ≤ 57

/-- The value of a run of digits. -/
def value (digits : List UInt8) : Nat :=
  digits.foldl (fun n c => 10 * n + (c.toNat - 48)) 0

/-- The numeral of a number, without leading zeros. -/
def numeral (n : Nat) : List UInt8 := (Nat.toDigits 10 n).map fun c => c.toNat.toUInt8

theorem isDigit_iff (c : UInt8) : isDigit c = true ↔ 48 ≤ c.toNat ∧ c.toNat ≤ 57 := by
  simp [isDigit, UInt8.le_iff_toNat_le]

private theorem char_range {c : Char} (digit : c.isDigit = true) :
    48 ≤ c.toNat ∧ c.toNat ≤ 57 := by
  simpa [Char.isDigit, UInt32.le_iff_toNat_le] using digit

theorem isDigit_of_mem_numeral {n : Nat} {c : UInt8} (member : c ∈ numeral n) :
    isDigit c = true := by
  obtain ⟨char, inDigits, rfl⟩ := List.mem_map.mp member
  obtain ⟨low, high⟩ := char_range
    (Nat.isDigit_of_mem_toDigits (by decide) (by decide) inDigits)
  rw [isDigit_iff]
  simp only [Nat.toUInt8_eq, UInt8.toNat_ofNat']
  omega

theorem numeral_ne_nil (n : Nat) : numeral n ≠ [] := by
  simp [numeral, Nat.toDigits_ne_nil]

private theorem foldl_chars (chars : List Char) (all : ∀ c ∈ chars, c.isDigit = true)
    (init : Nat) :
    (chars.map fun c => c.toNat.toUInt8).foldl (fun n c => 10 * n + (c.toNat - 48)) init =
      Nat.ofDigitChars 10 chars init := by
  induction chars generalizing init with
  | nil => rfl
  | cons c chars inductionHypothesis =>
      obtain ⟨low, high⟩ := char_range (all c List.mem_cons_self)
      have small : c.toNat.toUInt8.toNat = c.toNat := by
        simp only [Nat.toUInt8_eq, UInt8.toNat_ofNat']
        omega
      rw [List.map_cons, List.foldl_cons, small, Nat.ofDigitChars_cons,
        inductionHypothesis fun other member => all other (List.mem_cons_of_mem _ member)]
      rfl

@[simp] theorem value_numeral (n : Nat) : value (numeral n) = n := by
  rw [value, numeral, foldl_chars _ fun c member =>
    Nat.isDigit_of_mem_toDigits (by decide) (by decide) member, Nat.ofDigitChars_ten_toDigits]

private theorem foldl_lt (digits : List UInt8) (all : ∀ c ∈ digits, isDigit c = true)
    (init : Nat) :
    digits.foldl (fun n c => 10 * n + (c.toNat - 48)) init < (init + 1) * 10 ^ digits.length := by
  induction digits generalizing init with
  | nil => simp
  | cons c digits inductionHypothesis =>
      obtain ⟨low, high⟩ := (isDigit_iff c).mp (all c List.mem_cons_self)
      have rest := inductionHypothesis
        (fun other member => all other (List.mem_cons_of_mem _ member))
        (10 * init + (c.toNat - 48))
      have digit : 10 * init + (c.toNat - 48) + 1 ≤ (init + 1) * 10 := by omega
      calc _ < (10 * init + (c.toNat - 48) + 1) * 10 ^ digits.length := rest
        _ ≤ (init + 1) * 10 * 10 ^ digits.length := Nat.mul_le_mul_right _ digit
        _ = (init + 1) * 10 ^ (c :: digits).length := by
            rw [List.length_cons, Nat.pow_succ', Nat.mul_assoc]

theorem value_lt {digits : List UInt8} (all : ∀ c ∈ digits, isDigit c = true) :
    value digits < 10 ^ digits.length := by
  simpa [value] using foldl_lt digits all 0

theorem numeral_length_le_iff {n count : Nat} (pos : 0 < count) :
    (numeral n).length ≤ count ↔ n < 10 ^ count := by
  rw [numeral, List.length_map, Nat.length_toDigits_le_iff (by decide) pos]

/-- The numeral is the shortest digit run with its value. -/
theorem numeral_length_le {digits : List UInt8} (nonempty : digits ≠ [])
    (all : ∀ c ∈ digits, isDigit c = true) :
    (numeral (value digits)).length ≤ digits.length := by
  rw [numeral_length_le_iff (List.length_pos_iff.mpr nonempty)]
  exact value_lt all

end KcpTest.Library.Decimal
