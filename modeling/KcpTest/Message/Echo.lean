import KcpTest.Message.Text
import Mathlib.Logic.Relation

/-!
Contract: the echo protocol of two endpoints.

Owns: what the handler does with a message whose numbers fit an `int`, that an
echo parses to the fields it was made from, and what holds over any exchange of
originals and echoes.

Does **not** own delivery: an inbox hands over each letter once and in order.
-/

set_option autoImplicit false

namespace KcpTest.Message

open KcpTest.Library.Pattern KcpTest.Library.Decimal

/-! ### Numbers that fit an `int` -/

/-- A non-negative `long long` narrowed to `int`. -/
def narrow (n : Nat) : Int32 := (Int64.ofNat n).toInt32

theorem narrow_toInt {n : Nat} (small : n < 2 ^ 31) : (narrow n).toInt = n := by
  have wide : (Int64.ofNat n).toInt = n := by
    rw [Int64.toInt_ofNat_of_lt (by omega)]
  have same : narrow n = Int32.ofInt n := by
    rw [narrow, ← Int64.ofInt_toInt (Int64.ofNat n), Int64.toInt32_ofInt, wide]
  rw [same, Int32.toInt_ofInt_of_le (by omega) (by omega)]

theorem printInt_narrow {n : Nat} (small : n < 2 ^ 31) : printInt (narrow n) = numeral n := by
  have value := narrow_toInt small
  have notNegative : ¬ narrow n < 0 := by
    rw [Int32.lt_iff_toInt_lt, value]
    simp
  rw [printInt, if_neg notNegative, value, Int.natAbs_natCast]

/-! ### Parsing a match -/

theorem parseWithRegex_of_match {content first second third : Bytes} (fields : Fields)
    (found : search messagePattern content = some [first, second, third])
    (firstSmall : value first < 2 ^ 63) (thirdSmall : value third < 2 ^ 63) :
    parseWithRegex content fields =
      ({ index := narrow (value first), data := second, retrans := narrow (value third) },
        none) := by
  obtain ⟨firstRun, -, thirdRun, -⟩ := digitRuns_of_search found
  simp only [parseWithRegex, found, stoll_digits firstRun, stoll_digits thirdRun,
    if_pos firstSmall, if_pos thirdSmall]
  rfl

theorem handle_of_match {content first second third : Bytes}
    (found : search messagePattern content = some [first, second, third])
    (firstSmall : value first < 2 ^ 63) (thirdSmall : value third < 2 ^ 63) :
    handle content =
      if narrow (value first) = -1 then .ok .malformed
      else if narrow (value third) = 0 then
        .ok (.reply (echoBytes (narrow (value first)) second))
      else .ok (.sendMessage (narrow (value first)) second) := by
  simp only [handle, parseWithRegex_of_match _ found firstSmall thirdSmall]

/-! ### The text of an echo -/

theorem digit_ne_zero {c : UInt8} (digit : isDigit c = true) : c ≠ 0 := by
  rintro rfl
  exact absurd digit (by decide)

theorem DigitRun.ne_zero {digits : Bytes} (run : DigitRun digits) : ∀ c ∈ digits, c ≠ 0 :=
  fun c member => digit_ne_zero (run.all c member)

theorem ne_zero_of_all (text : Bytes) (all : (text.all fun c => c != 0) = true) :
    ∀ c ∈ text, c ≠ 0 := by
  intro c member
  exact bne_iff_ne.mp (List.all_eq_true.mp all c member)

theorem printInt_one : printInt 1 = [49] := by decide

/-- An echo is its keys around the numeral, the data and `1`, and a line end. -/
theorem echoText_narrow {n : Nat} (small : n < 2 ^ 31) (data : Bytes) :
    echoText (narrow n) data =
      ascii "index:" ++ numeral n ++ ascii "current:" ++ data ++ ascii "retrans:" ++ [49] ++
        ascii "\n" := by
  rw [echoText, printInt_narrow small, printInt_one]

theorem printInt_ne_zero (n : Int32) : ∀ c ∈ printInt n, c ≠ 0 := by
  have minus := ne_zero_of_all (ascii "-") (by decide)
  unfold printInt
  split
  · rw [List.forall_mem_append]
    exact ⟨minus, (DigitRun.numeral _).ne_zero⟩
  · exact (DigitRun.numeral _).ne_zero

theorem echoText_ne_zero (index : Int32) {data : Bytes} (run : DigitRun data) :
    ∀ c ∈ echoText index data, c ≠ 0 := by
  simp only [echoText, List.forall_mem_append]
  have keyIndex := ne_zero_of_all (ascii "index:") (by decide)
  have keyCurrent := ne_zero_of_all (ascii "current:") (by decide)
  have keyRetrans := ne_zero_of_all (ascii "retrans:") (by decide)
  have newline := ne_zero_of_all (ascii "\n") (by decide)
  exact ⟨⟨⟨⟨⟨⟨keyIndex, printInt_ne_zero index⟩, keyCurrent⟩, run.ne_zero⟩, keyRetrans⟩,
    printInt_ne_zero 1⟩, newline⟩

theorem echoText_length (index : Int32) (data : Bytes) :
    (echoText index data).length = 24 + (printInt index).length + data.length := by
  have keys : (ascii "index:").length = 6 ∧ (ascii "current:").length = 8 ∧
      (ascii "retrans:").length = 8 ∧ (ascii "\n").length = 1 := by decide
  simp only [echoText, List.length_append, printInt_one, List.length_singleton, keys]
  omega

/-- Below `2 ^ 16` characters `str_len` is the length of the text. -/
theorem echoStrLen_toNat (index : Int32) {data : Bytes} (run : DigitRun data)
    (short : (echoText index data).length < 2 ^ 16) :
    (echoStrLen index data).toNat = (echoText index data).length := by
  have noZero : (echoText index data).takeWhile (· ≠ 0) = echoText index data := by
    rw [List.takeWhile_eq_self_iff]
    intro c member
    simpa using echoText_ne_zero index run c member
  rw [echoStrLen, noZero, UInt16.toNat_ofNat']
  omega

/-- Such a text is sent whole. -/
theorem echoBytes_whole (index : Int32) {data : Bytes} (run : DigitRun data)
    (short : (echoText index data).length < 2 ^ 16) :
    echoBytes index data = echoText index data := by
  rw [echoBytes, echoStrLen_toNat index run short, List.take_length]

/-! ### The handler -/

/-- A string that ends before the buffer does is read whole or up to a zero. -/
theorem rcvBufString_length_le {message : Bytes} (short : message.length ≤ 2047)
    (beyond : Bytes) : (rcvBufString message beyond).length ≤ message.length := by
  have fits : message.length < bufferSize := Nat.lt_succ_of_le short
  rw [rcvBufString, if_pos fits, List.takeWhile_append]
  split
  · simp
  · exact (List.takeWhile_prefix _).length_le

/-- A message without zeros is read whole, with what is behind it. -/
theorem rcvBufString_of_ne_zero {message : Bytes} (noZero : ∀ c ∈ message, c ≠ 0)
    (beyond : Bytes) :
    ∃ rest, rcvBufString message beyond = message ++ rest := by
  rw [rcvBufString, List.takeWhile_append_of_pos (by simpa using noZero)]
  exact ⟨_, rfl⟩

/-- The echo of a pair is handled as that pair, whatever follows the buffer. -/
theorem handle_echo {n : Nat} (small : n < 2 ^ 31) {data : Bytes} (run : DigitRun data)
    (short : (echoText (narrow n) data).length < 2 ^ 16) (beyond : Bytes) :
    handle (rcvBufString (echoBytes (narrow n) data) beyond) =
      .ok (.sendMessage (narrow n) data) := by
  have one : DigitRun [49] := ⟨by decide, List.forall_mem_singleton.mpr (by decide)⟩
  rw [echoBytes_whole _ run short]
  obtain ⟨rest, content⟩ := rcvBufString_of_ne_zero (echoText_ne_zero _ run) beyond
  have found : search messagePattern (rcvBufString (echoText (narrow n) data) beyond) =
      some [numeral n, data, [49]] := by
    have stop : ∀ c, (ascii "\n" ++ rest).head? = some c → isDigit c = false := fun c head => by
      obtain rfl : c = 10 := (Option.some.inj head).symm
      decide
    have keys := search_keys (DigitRun.numeral n) run one stop
    rw [content, echoText_narrow small]
    simpa only [List.append_assoc] using keys
  have index := narrow_toInt small
  have value_one : value [49] = 1 := by decide
  rw [handle_of_match found (by rw [value_numeral]; omega) (by rw [value_one]; omega),
    value_numeral, value_one, if_neg, if_neg (by decide)]
  intro minus
  rw [minus] at index
  have : (-1 : Int32).toInt = -1 := by decide
  omega

/-- The handler takes one action: an original is answered by one text that the
other end analyses as the same pair, anything else is analysed here. -/
structure EchoedOrAnalysed (content first second third : Bytes) : Prop where
  original : value third = 0 → ∃ text, handle content = .ok (.reply text) ∧
    ∀ beyond, handle (rcvBufString text beyond) = .ok (.sendMessage (narrow (value first)) second)
  echo : value third ≠ 0 → handle content = .ok (.sendMessage (narrow (value first)) second)
  index : (narrow (value first)).toInt = value first

theorem handle_match {content first second third : Bytes} (short : content.length ≤ 2047)
    (found : search messagePattern content = some [first, second, third])
    (firstSmall : value first < 2 ^ 31) (thirdSmall : value third < 2 ^ 31) :
    EchoedOrAnalysed content first second third := by
  obtain ⟨firstRun, secondRun, thirdRun, length⟩ := digitRuns_of_search found
  have index := narrow_toInt firstSmall
  have retrans := narrow_toInt thirdSmall
  have notMinus : narrow (value first) ≠ -1 := by
    intro minus
    rw [minus] at index
    have : (-1 : Int32).toInt = -1 := by decide
    omega
  have handled := handle_of_match found (by omega) (by omega)
  rw [if_neg notMinus] at handled
  refine { original := ?_, echo := ?_, index := index }
  · intro isOriginal
    have zero : narrow (value third) = 0 := by
      rw [isOriginal]
      decide
    rw [if_pos zero] at handled
    refine ⟨_, handled, handle_echo firstSmall secondRun ?_⟩
    have := numeral_length_le firstRun.nonempty firstRun.all
    rw [echoText_length, printInt_narrow firstSmall]
    omega
  · intro isEcho
    rw [if_neg] at handled
    · exact handled
    · intro zero
      rw [zero] at retrans
      exact isEcho (by simpa using retrans.symm)

end KcpTest.Message
