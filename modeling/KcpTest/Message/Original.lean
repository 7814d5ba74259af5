import KcpTest.Message.Echo

/-!
Contract: the messages `test_kcp_send` sends.

Owns: the text of a message from its counter and clock, the bytes passed to
`kcpSend`, and the counters whose message is parsed back.

The counter and the clock are of type `IINT64`; the parser assigns the index to
an `int`.
-/

set_option autoImplicit false

namespace KcpTest.Message

open KcpTest.Library.Pattern KcpTest.Library.Decimal

/-- What `operator<<` prints for an `IINT64`. -/
def printLong (n : Int64) : Bytes :=
  if n < 0 then ascii "-" ++ numeral n.toInt.natAbs else numeral n.toInt.natAbs

/-- The characters put into the string stream by `test_kcp_send`. -/
def originalText (index current : Int64) : Bytes :=
  ascii "index:" ++ printLong index ++ ascii "current:" ++ printLong current ++
    ascii "retrans:" ++ printInt 0 ++ ascii "\n"

/-- The bytes passed to `kcpSend`: `str_len` is an `uint16_t`. -/
def originalBytes (index current : Int64) : Bytes :=
  let text := originalText index current
  let strLen := UInt16.ofNat (text.takeWhile (· ≠ 0)).length
  text.take strLen.toNat

/-- The text is parsed to its index, its clock and no retransmission, and the
other end does not find the message malformed. -/
structure ParsedBack (index current : Int64) : Prop where
  parsed : ∀ fields, ∃ result, parseWithRegex (originalText index current) fields = (result, none) ∧
    result.index.toInt = index.toInt ∧ stoll result.data = .ok current ∧ result.retrans = 0
  handled : ∀ beyond, handle (rcvBufString (originalBytes index current) beyond) ≠ .ok .malformed

/-! ### The text -/

/-- A number that is not negative is printed as its numeral. -/
theorem printLong_of_nonneg {n : Int64} (nonneg : 0 ≤ n.toInt) :
    printLong n = numeral n.toInt.toNat := by
  have notNegative : ¬ n < 0 := by
    rw [Int64.lt_iff_toInt_lt]
    exact Int.not_lt.mpr nonneg
  rw [printLong, if_neg notNegative]
  congr 1
  omega

theorem printInt_zero : printInt 0 = [48] := by decide

theorem originalText_eq {index current : Int64} (indexNonneg : 0 ≤ index.toInt)
    (currentNonneg : 0 ≤ current.toInt) :
    originalText index current =
      ascii "index:" ++ numeral index.toInt.toNat ++ ascii "current:" ++
        numeral current.toInt.toNat ++ ascii "retrans:" ++ [48] ++ ascii "\n" := by
  rw [originalText, printLong_of_nonneg indexNonneg, printLong_of_nonneg currentNonneg,
    printInt_zero]

/-- A counter of 63 bits has at most nineteen digits. -/
theorem numeral_toInt_length_le (n : Int64) : (numeral n.toInt.toNat).length ≤ 19 := by
  have small := Int64.toInt_lt n
  apply (numeral_length_le_iff (by decide)).mpr
  omega

section Text

variable {index current : Int64} (indexNonneg : 0 ≤ index.toInt)
  (currentNonneg : 0 ≤ current.toInt)
include indexNonneg currentNonneg

theorem originalText_ne_zero : ∀ c ∈ originalText index current, c ≠ 0 := by
  rw [originalText_eq indexNonneg currentNonneg]
  simp only [List.forall_mem_append]
  have keyIndex := ne_zero_of_all (ascii "index:") (by decide)
  have keyCurrent := ne_zero_of_all (ascii "current:") (by decide)
  have keyRetrans := ne_zero_of_all (ascii "retrans:") (by decide)
  have zero := ne_zero_of_all [48] (by decide)
  have newline := ne_zero_of_all (ascii "\n") (by decide)
  exact ⟨⟨⟨⟨⟨⟨keyIndex, (DigitRun.numeral _).ne_zero⟩, keyCurrent⟩, (DigitRun.numeral _).ne_zero⟩,
    keyRetrans⟩, zero⟩, newline⟩

theorem originalText_length_le : (originalText index current).length ≤ 62 := by
  have keys : (ascii "index:").length = 6 ∧ (ascii "current:").length = 8 ∧
      (ascii "retrans:").length = 8 ∧ (ascii "\n").length = 1 := by decide
  have indexDigits := numeral_toInt_length_le index
  have currentDigits := numeral_toInt_length_le current
  rw [originalText_eq indexNonneg currentNonneg]
  simp only [List.length_append, List.length_singleton, keys]
  omega

/-- The whole text is sent. -/
theorem originalBytes_eq : originalBytes index current = originalText index current := by
  have short := originalText_length_le indexNonneg currentNonneg
  have noZero : (originalText index current).takeWhile (· ≠ 0) = originalText index current := by
    rw [List.takeWhile_eq_self_iff]
    intro c member
    simpa using originalText_ne_zero indexNonneg currentNonneg c member
  apply List.take_of_length_le
  rw [noZero, UInt16.toNat_ofNat']
  omega

/-- Whatever follows it, the text is matched with its own numerals. -/
theorem search_originalText (rest : Bytes) :
    search messagePattern (originalText index current ++ rest) =
      some [numeral index.toInt.toNat, numeral current.toInt.toNat, [48]] := by
  have zero : DigitRun [48] := ⟨by decide, List.forall_mem_singleton.mpr (by decide)⟩
  have stop : ∀ c, (ascii "\n" ++ rest).head? = some c → isDigit c = false := by
    intro c head
    obtain rfl : c = 10 := (Option.some.inj head).symm
    decide
  have keys := search_keys (DigitRun.numeral index.toInt.toNat)
    (DigitRun.numeral current.toInt.toNat) zero stop
  rw [originalText_eq indexNonneg currentNonneg]
  simpa only [List.append_assoc] using keys

end Text

/-! ### Parsing it back -/

/-- The numeral of a clock that is not negative converts to the clock. -/
theorem stoll_numeral {current : Int64} (nonneg : 0 ≤ current.toInt) :
    stoll (numeral current.toInt.toNat) = .ok current := by
  have below := Int64.toInt_lt current
  rw [stoll_digits (DigitRun.numeral _), value_numeral, if_pos (by omega)]
  congr 1
  rw [← Int64.ofInt_eq_ofNat, Int.toNat_of_nonneg nonneg, Int64.ofInt_toInt]

theorem parseWithRegex_originalText {index current : Int64} (indexNonneg : 0 ≤ index.toInt)
    (currentNonneg : 0 ≤ current.toInt) (fields : Fields) :
    parseWithRegex (originalText index current) fields =
      ({ index := narrow index.toInt.toNat, data := numeral current.toInt.toNat, retrans := 0 },
        none) := by
  have below := Int64.toInt_lt index
  have found := search_originalText indexNonneg currentNonneg []
  have zero : value [48] = 0 := by decide
  rw [List.append_nil] at found
  rw [parseWithRegex_of_match fields found (by rw [value_numeral]; omega) (by rw [zero]; omega),
    value_numeral, zero]
  rfl

/-- An index comes back only if it fits an `int`. -/
theorem ParsedBack.small {index current : Int64} (indexNonneg : 0 ≤ index.toInt)
    (currentNonneg : 0 ≤ current.toInt) (back : ParsedBack index current) :
    index.toInt < 2 ^ 31 := by
  obtain ⟨result, parsed, same, -⟩ := back.parsed unparsed
  rw [parseWithRegex_originalText indexNonneg currentNonneg] at parsed
  obtain rfl := congrArg Prod.fst parsed
  rw [← same]
  exact Int32.toInt_lt _

/-- For every counter and clock that are not negative, the message is parsed back
exactly when the counter is below `2 ^ 31`. -/
theorem parsed_back_iff {index current : Int64} (indexNonneg : 0 ≤ index.toInt)
    (currentNonneg : 0 ≤ current.toInt) :
    ParsedBack index current ↔ index.toInt < 2 ^ 31 := by
  constructor
  · exact ParsedBack.small indexNonneg currentNonneg
  · intro small
    have narrowed := narrow_toInt (n := index.toInt.toNat) (by omega)
    rw [Int.toNat_of_nonneg indexNonneg] at narrowed
    refine { parsed := ?_, handled := ?_ }
    · intro fields
      refine ⟨_, parseWithRegex_originalText indexNonneg currentNonneg fields, narrowed, ?_, rfl⟩
      exact stoll_numeral currentNonneg
    · intro beyond
      rw [originalBytes_eq indexNonneg currentNonneg]
      obtain ⟨rest, content⟩ :=
        rcvBufString_of_ne_zero (originalText_ne_zero indexNonneg currentNonneg) beyond
      have found := search_originalText indexNonneg currentNonneg rest
      have zero : value [48] = 0 := by decide
      rw [content, handle_of_match found (by rw [value_numeral]; omega) (by rw [zero]; omega),
        value_numeral, zero, if_neg, if_pos (by decide)]
      · simp
      · intro minus
        rw [minus] at narrowed
        have : (-1 : Int32).toInt = -1 := by decide
        omega

theorem parsed_back_seven : ParsedBack 7 42 :=
  (parsed_back_iff (by decide) (by decide)).mpr (by decide)

/-- The counter `2 ^ 32 - 1` is parsed as the index of a malformed message. -/
theorem not_parsed_back :
    ¬ ∀ index current : Int64, 0 ≤ index.toInt → 0 ≤ current.toInt → ParsedBack index current := by
  intro back
  have small := (back 4294967295 42 (by decide) (by decide)).small (by decide) (by decide)
  exact absurd small (by decide)

end KcpTest.Message
