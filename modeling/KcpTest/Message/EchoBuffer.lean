import KcpTest.Message.Echo

/-!
Contract: the buffer `run_udp_thread` builds an echo in.

Owns: what `memccpy` writes, the length of an echo against that of the message it
answers, and the messages whose echo does not fit the buffer.

The index is printed from an `int`, so an echo can be longer than its message.
-/

set_option autoImplicit false

namespace KcpTest.Message

open KcpTest.Library.Pattern KcpTest.Library.Decimal

/-- The bytes `memccpy` writes: at most `count`, and none behind the first
`stop`. -/
def memccpy (source : Bytes) (stop : UInt8) (count : Nat) : Bytes :=
  let front := source.take count
  front.takeWhile (· ≠ stop) ++ if stop ∈ front then [stop] else []

/-- When the handler answers a message, the text fits the buffer, and so does
what is copied, and `str_len` is the length of the text. -/
def EchoFits (content : Bytes) : Prop :=
  ∀ fields, parseWithRegex content unparsed = (fields, none) → fields.index ≠ -1 →
    fields.retrans = 0 →
    (echoText fields.index fields.data).length ≤ bufferSize ∧
      (memccpy (echoText fields.index fields.data ++ [0]) 0
        (echoStrLen fields.index fields.data).toNat).length ≤ bufferSize ∧
      (echoStrLen fields.index fields.data).toNat = (echoText fields.index fields.data).length

/-- An index narrows to a negative number of ten digits. -/
def LongNegative (n : Nat) : Prop := 2 ^ 31 ≤ n % 2 ^ 32 ∧ n % 2 ^ 32 ≤ 2 ^ 32 - 10 ^ 9

/-- A string of 2047 bytes that is one match: ten digits of an index that narrows
to a negative number of ten digits, 2014 digits, and a single zero. -/
def Overlong (content : Bytes) : Prop :=
  ∃ first second, search messagePattern content = some [first, second, [48]] ∧
    first.length = 10 ∧ second.length = 2014 ∧ LongNegative (value first)

/-! ### The printed index -/

theorem narrow_toInt_bmod {n : Nat} (small : n < 2 ^ 63) :
    (narrow n).toInt = (n : Int).bmod (2 ^ 32) := by
  rw [narrow, Int64.toInt_toInt32, Int64.toInt_ofNat_of_lt (by omega)]

/-- Of the numbers of ten digits, those that narrow to ten digits and a sign get
longer. -/
theorem printInt_length_of_longNegative {n : Nat} (small : n < 2 ^ 63) (long : LongNegative n) :
    (printInt (narrow n)).length = 11 := by
  obtain ⟨low, high⟩ := long
  have narrowed : (narrow n).toInt = (n : Int) % 2 ^ 32 - 2 ^ 32 := by
    rw [narrow_toInt_bmod small, Int.bmod_def]
    omega
  have negative : narrow n < 0 := by
    rw [Int32.lt_iff_toInt_lt, narrowed]
    show _ < (0 : Int)
    omega
  have sign : (ascii "-").length = 1 := by decide
  have digits : (numeral (narrow n).toInt.natAbs).length = 10 := by
    apply Nat.le_antisymm
    · apply (numeral_length_le_iff (by decide)).mpr
      omega
    · apply Nat.not_lt.mp
      intro short
      have few := (numeral_length_le_iff (by decide : 0 < 9)).mp (Nat.le_of_lt_succ short)
      omega
  rw [printInt, if_pos negative, List.length_append, sign, digits]

/-- All other indices are printed with at most the digits they came with. -/
theorem printInt_length_le {digits : Bytes} (run : DigitRun digits)
    (small : value digits < 2 ^ 63)
    (notLong : ¬ (digits.length = 10 ∧ LongNegative (value digits))) :
    (printInt (narrow (value digits))).length ≤ digits.length := by
  have bound := value_lt run.all
  have nonempty := List.length_pos_iff.mpr run.nonempty
  have narrowed := narrow_toInt_bmod small
  rw [Int.bmod_def] at narrowed
  by_cases negative : narrow (value digits) < 0
  · have below := Int32.lt_iff_toInt_lt.mp negative
    have zero : (0 : Int32).toInt = 0 := rfl
    have sign : (ascii "-").length = 1 := by decide
    -- a number from `2 ^ 31` on has ten digits or more
    have ten : 10 ≤ digits.length := by
      apply Nat.not_lt.mp
      intro few
      have power : 10 ^ digits.length ≤ 10 ^ 9 := Nat.pow_le_pow_right (by decide) (by omega)
      omega
    rw [printInt, if_pos negative, List.length_append, sign]
    by_cases exact' : digits.length = 10
    · have short : ¬ LongNegative (value digits) := fun long => notLong ⟨exact', long⟩
      have few : (numeral (narrow (value digits)).toInt.natAbs).length ≤ 9 := by
        apply (numeral_length_le_iff (by decide)).mpr
        simp only [LongNegative] at short
        omega
      omega
    · have few : (numeral (narrow (value digits)).toInt.natAbs).length ≤ 10 := by
        apply (numeral_length_le_iff (by decide)).mpr
        omega
      omega
  · have notBelow : 0 ≤ (narrow (value digits)).toInt := by
      rw [Int32.lt_iff_toInt_lt] at negative
      exact Int.not_lt.mp negative
    rw [printInt, if_neg negative]
    apply (numeral_length_le_iff nonempty).mpr
    omega

/-! ### The copy -/

/-- A copy of a C string that stops at its terminator or before. -/
theorem memccpy_length_le (source : Bytes) (stop : UInt8) (count : Nat) :
    (memccpy source stop count).length ≤ count := by
  have front : (source.take count).length ≤ count := List.length_take_le _ _
  simp only [memccpy]
  generalize source.take count = bytes at front
  rw [List.length_append]
  split
  · rename_i stops
    have shorter : (bytes.takeWhile (· ≠ stop)).length < bytes.length := by
      apply Nat.lt_of_le_of_ne (List.takeWhile_prefix _).length_le
      intro whole
      have same := List.Sublist.eq_of_length (List.takeWhile_sublist _) whole
      have differs := List.takeWhile_eq_self_iff.mp same stop stops
      simp at differs
    simp only [List.length_singleton]
    omega
  · have := (List.takeWhile_prefix (p := (· ≠ stop)) (l := bytes)).length_le
    simp only [List.length_nil]
    omega

/-! ### The messages that are answered -/

/-- A message that sets the index matches, and its numbers fit 63 bits. -/
theorem parseWithRegex_assigned {content : Bytes} {fields : Fields}
    (parsed : parseWithRegex content unparsed = (fields, none)) (assigned : fields.index ≠ -1) :
    ∃ first second third, search messagePattern content = some [first, second, third] ∧
      value first < 2 ^ 63 ∧ value third < 2 ^ 63 ∧
      fields =
        { index := narrow (value first), data := second, retrans := narrow (value third) } := by
  cases found : search messagePattern content with
  | none =>
      simp only [parseWithRegex, found] at parsed
      exact absurd (congrArg (fun result => result.1.index) parsed).symm assigned
  | some captures =>
      obtain ⟨first, second, third, rfl, firstRun, secondRun, thirdRun, -⟩ :=
        search_messagePattern found
      have firstSmall : value first < 2 ^ 63 := by
        apply Decidable.byContradiction
        intro large
        simp only [parseWithRegex, found, stoll_digits firstRun, if_neg large] at parsed
        exact absurd (congrArg Prod.snd parsed) (by simp)
      have thirdSmall : value third < 2 ^ 63 := by
        apply Decidable.byContradiction
        intro large
        simp only [parseWithRegex, found, stoll_digits firstRun, stoll_digits thirdRun,
          if_pos firstSmall, if_neg large] at parsed
        exact absurd (congrArg Prod.snd parsed) (by simp)
      refine ⟨first, second, third, rfl, firstSmall, thirdSmall, ?_⟩
      rw [parseWithRegex_of_match unparsed found firstSmall thirdSmall] at parsed
      exact (congrArg Prod.fst parsed).symm

/-- A single digit that narrows to zero is a zero. -/
theorem digits_eq_zero {digits : Bytes} (run : DigitRun digits) (single : digits.length = 1)
    (isZero : narrow (value digits) = 0) : digits = [48] := by
  obtain ⟨c, rfl⟩ := List.length_eq_one_iff.mp single
  obtain ⟨low, high⟩ := (isDigit_iff c).mp (run.all c List.mem_cons_self)
  have digit : value [c] = c.toNat - 48 := by simp [value]
  have narrowed := narrow_toInt (n := value [c]) (by omega)
  rw [isZero, digit] at narrowed
  have same : c.toNat = 48 := by
    have zero : (0 : Int32).toInt = 0 := rfl
    omega
  congr 1
  exact UInt8.toNat_inj.mp same

/-- The echo of an overlong message is one byte too long. -/
theorem Overlong.not_echoFits {content : Bytes} (overlong : Overlong content) :
    ¬ EchoFits content := by
  obtain ⟨first, second, found, firstLength, secondLength, long⟩ := overlong
  obtain ⟨firstRun, -⟩ := digitRuns_of_search found
  have bound := value_lt firstRun.all
  rw [firstLength] at bound
  have small : value first < 2 ^ 63 := by omega
  have zero : value [48] = 0 := by decide
  have parsed := parseWithRegex_of_match unparsed found small (by rw [zero]; omega)
  have printed := printInt_length_of_longNegative small long
  intro fits
  obtain ⟨short, -⟩ := fits _ parsed
    (by
      intro minus
      have index : narrow (value first) = -1 := minus
      rw [index] at printed
      exact absurd printed (by decide))
    (by rw [zero]; rfl)
  rw [echoText_length, printed, secondLength] at short
  exact absurd short (by decide)

/-- For every string of at most 2047 bytes, its echo fits the buffer exactly when
the string is not overlong. -/
theorem echo_fits_iff {content : Bytes} (short : content.length ≤ 2047) :
    EchoFits content ↔ ¬ Overlong content := by
  constructor
  · intro fits overlong
    exact overlong.not_echoFits fits
  · intro notOverlong fields parsed assigned original
    obtain ⟨first, second, third, found, firstSmall, thirdSmall, rfl⟩ :=
      parseWithRegex_assigned parsed assigned
    obtain ⟨firstRun, secondRun, thirdRun, length⟩ := digitRuns_of_search found
    have thirdPos := List.length_pos_iff.mpr thirdRun.nonempty
    have textLength := echoText_length (narrow (value first)) second
    have fits : (echoText (narrow (value first)) second).length ≤ bufferSize := by
      show _ ≤ 2048
      by_cases long : first.length = 10 ∧ LongNegative (value first)
      · obtain ⟨firstLength, negative⟩ := long
        have printed := printInt_length_of_longNegative firstSmall negative
        apply Nat.not_lt.mp
        intro tooLong
        apply notOverlong
        -- the string is then nothing but the match, and its last run is a zero
        have single : third.length = 1 := by omega
        have isZero : third = [48] := digits_eq_zero thirdRun single original
        rw [isZero] at found
        exact ⟨first, second, found, firstLength, by omega, negative⟩
      · have printed := printInt_length_le firstRun firstSmall long
        omega
    have copied := echoStrLen_toNat (narrow (value first)) secondRun
      (Nat.lt_of_le_of_lt fits (by decide))
    refine ⟨fits, ?_, copied⟩
    apply Nat.le_trans (memccpy_length_le _ _ _)
    rw [copied]
    exact fits

theorem echo_fits_seven : EchoFits (ascii "index:7current:42retrans:0") := by
  apply (echo_fits_iff (by decide)).mpr
  rintro ⟨first, second, found, firstLength, -⟩
  have matched : search messagePattern (ascii "index:7current:42retrans:0") =
      some [ascii "7", ascii "42", ascii "0"] := by decide
  rw [matched] at found
  obtain ⟨rfl, -⟩ : ascii "7" = first ∧ ascii "42" = second ∧ ascii "0" = [48] := by
    simpa using found
  exact absurd firstLength (by decide)

/-- A message of 2047 bytes with the index `2 ^ 31`. -/
def longest : Bytes :=
  ascii "index:" ++ ascii "2147483648" ++ ascii "current:" ++ List.replicate 2014 48 ++
    ascii "retrans:" ++ [48]

theorem not_echo_fits : ¬ ∀ content : Bytes, content.length ≤ 2047 → EchoFits content := by
  intro fits
  have length : longest.length ≤ 2047 := by
    have keys : (ascii "index:").length = 6 ∧ (ascii "2147483648").length = 10 ∧
        (ascii "current:").length = 8 ∧ (ascii "retrans:").length = 8 := by decide
    simp only [longest, List.length_append, List.length_replicate, List.length_singleton, keys]
    omega
  apply Overlong.not_echoFits _ (fits longest length)
  have index : DigitRun (ascii "2147483648") := ⟨by decide, List.all_eq_true.mp rfl⟩
  have data : DigitRun (List.replicate 2014 48) := by
    constructor
    · apply List.ne_nil_of_length_pos
      rw [List.length_replicate]
      decide
    · intro c member
      rw [List.eq_of_mem_replicate member]
      decide
  have retrans : DigitRun [48] := ⟨by decide, List.all_eq_true.mp rfl⟩
  have nothing : ∀ c, ([] : Bytes).head? = some c → isDigit c = false := by simp
  have found := search_keys index data retrans nothing
  rw [List.append_nil] at found
  exact ⟨_, _, found, by decide, List.length_replicate, by decide, by decide⟩

end KcpTest.Message
