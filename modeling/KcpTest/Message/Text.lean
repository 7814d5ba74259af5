import KcpTest.Library.Pattern
import KcpTest.Library.Decimal

/-!
Contract: the text messages of the test program.

Owns: `parseWithRegex` with the conversions it makes, the message handler of
`run_udp_thread`, and the text of an echo.

The regular expression matches leftmost, with greedy digit runs. Strings are
byte lists, and a `char` buffer is read up to its first zero byte.
-/

set_option autoImplicit false

namespace KcpTest.Message

open KcpTest.Library.Pattern KcpTest.Library.Decimal

abbrev Bytes := List UInt8

def ascii (text : String) : Bytes := text.toList.map fun c => c.toNat.toUInt8

/-! ### Conversions -/

/-- The exceptions of `std::stoll`. -/
inductive ConversionError where
  | invalidArgument
  | outOfRange
  deriving DecidableEq

/-- `isspace` in the C locale. -/
def isSpace (c : UInt8) : Bool := c = 32 || (9 ≤ c && c ≤ 13)

/-- The optional sign of a numeral: whether it is a minus, and the rest. -/
def readSign : Bytes → Bool × Bytes
  | 45 :: rest => (true, rest)
  | 43 :: rest => (false, rest)
  | rest => (false, rest)

/-- `std::stoll` in base ten. -/
def stoll (text : Bytes) : Except ConversionError Int64 :=
  let (negative, text) := readSign (text.dropWhile isSpace)
  let digits := text.takeWhile isDigit
  if digits = [] then .error .invalidArgument
  else
    let result : Int := if negative then -(value digits : Int) else value digits
    if result < -2 ^ 63 ∨ 2 ^ 63 ≤ result then .error .outOfRange
    else .ok (Int64.ofInt result)

/-- What `operator<<` prints for an `int`. -/
def printInt (n : Int32) : Bytes :=
  if n < 0 then ascii "-" ++ numeral n.toInt.natAbs else numeral n.toInt.natAbs

/-! ### Parsing -/

/-- `index:(\d+)current:(\d+)retrans:(\d+)` -/
def messagePattern : List (Item UInt8) :=
  [.literal (ascii "index:"), .run isDigit, .literal (ascii "current:"), .run isDigit,
    .literal (ascii "retrans:"), .run isDigit]

/-- The variables `parseWithRegex` assigns through its reference parameters. -/
structure Fields where
  index : Int32
  data : Bytes
  retrans : Int32
  deriving DecidableEq

/-- The fields afterwards, and the exception that left the function, if any.
The assignments made before an exception stay. -/
def parseWithRegex (input : Bytes) (fields : Fields) : Fields × Option ConversionError :=
  match search messagePattern input with
  | some [first, second, third] =>
      match stoll first with
      | .error thrown => (fields, some thrown)
      | .ok index =>
          let fields := { fields with index := index.toInt32, data := second }
          match stoll third with
          | .error thrown => (fields, some thrown)
          | .ok retrans => ({ fields with retrans := retrans.toInt32 }, none)
  | _ => (fields, none)

/-! ### Handling -/

/-- What `run_udp_thread` does with a message: it reports a malformed one, sends
a text back, or passes a pair to `DataProcess::sendMessage`. -/
inductive Action where
  | malformed
  | reply (text : Bytes)
  | sendMessage (index : Int32) (data : Bytes)
  deriving DecidableEq

/-- The characters put into the string stream of an echo. -/
def echoText (index : Int32) (data : Bytes) : Bytes :=
  ascii "index:" ++ printInt index ++ ascii "current:" ++ data ++ ascii "retrans:" ++ printInt 1 ++
    ascii "\n"

/-- `str_len` of an echo, an `uint16_t`. -/
def echoStrLen (index : Int32) (data : Bytes) : UInt16 :=
  UInt16.ofNat ((echoText index data).takeWhile (· ≠ 0)).length

/-- The bytes passed to `kcpSend`. -/
def echoBytes (index : Int32) (data : Bytes) : Bytes :=
  (echoText index data).take (echoStrLen index data).toNat

/-- The variables the handler parses into, as it declares them. -/
def unparsed : Fields := { index := -1, data := [], retrans := 0 }

/-- The handler in `run_udp_thread`, on the string it parses. -/
def handle (content : Bytes) : Except ConversionError Action :=
  let (fields, thrown) := parseWithRegex content unparsed
  match thrown with
  | some thrown => .error thrown
  | none =>
      if fields.index = -1 then .ok .malformed
      else if fields.retrans = 0 then .ok (.reply (echoBytes fields.index fields.data))
      else .ok (.sendMessage fields.index fields.data)

/-- The size of `buffer` and of `rcv_buf`. -/
def bufferSize : Nat := 2048

/-- The C string in `rcv_buf` after a message was copied to it. The buffer has
zeroed bytes; `beyond` is the memory behind it. -/
def rcvBufString (message beyond : Bytes) : Bytes :=
  (message ++ if message.length < bufferSize then [0] else beyond).takeWhile (· ≠ 0)

/-! ### Facts about the pattern -/

/-- A run of digits that the pattern captures. -/
structure DigitRun (digits : Bytes) : Prop where
  nonempty : digits ≠ []
  all : ∀ c ∈ digits, isDigit c = true

theorem DigitRun.numeral (n : Nat) : DigitRun (numeral n) :=
  ⟨numeral_ne_nil n, fun _ member => isDigit_of_mem_numeral member⟩

/-- A match has three runs, and the text holds them between the three keys. -/
theorem search_messagePattern {input : Bytes} {captures : List Bytes}
    (found : search messagePattern input = some captures) :
    ∃ first second third, captures = [first, second, third] ∧ DigitRun first ∧
      DigitRun second ∧ DigitRun third ∧
      22 + first.length + second.length + third.length ≤ input.length := by
  obtain ⟨fits, before, inside⟩ := search_sound found
  cases fits with
  | literal _ fits =>
  cases fits with
  | run first firstNonempty firstAll fits =>
  cases fits with
  | literal _ fits =>
  cases fits with
  | run second secondNonempty secondAll fits =>
  cases fits with
  | literal _ fits =>
  cases fits with
  | run third thirdNonempty thirdAll fits =>
  cases fits with
  | nil =>
      refine ⟨first, second, third, rfl, ⟨firstNonempty, firstAll⟩,
        ⟨secondNonempty, secondAll⟩, ⟨thirdNonempty, thirdAll⟩, ?_⟩
      have length := inside.length_le
      have keys : (ascii "index:").length = 6 ∧ (ascii "current:").length = 8 ∧
          (ascii "retrans:").length = 8 := by decide
      simp only [messagePattern, fill, List.length_append, List.length_nil, keys] at length
      omega

theorem digitRuns_of_search {input first second third : Bytes}
    (found : search messagePattern input = some [first, second, third]) :
    DigitRun first ∧ DigitRun second ∧ DigitRun third ∧
      22 + first.length + second.length + third.length ≤ input.length := by
  obtain ⟨d1, d2, d3, same, runs⟩ := search_messagePattern found
  obtain ⟨rfl, rfl, rfl⟩ : first = d1 ∧ second = d2 ∧ third = d3 := by simpa using same
  exact runs

/-- A text of three keys and digit runs, with anything but a digit behind it, is
matched at its head. -/
theorem search_keys {first second third rest : Bytes} (firstRun : DigitRun first)
    (secondRun : DigitRun second) (thirdRun : DigitRun third)
    (stop : ∀ c, rest.head? = some c → isDigit c = false) :
    search messagePattern
        (ascii "index:" ++ first ++ ascii "current:" ++ second ++ ascii "retrans:" ++ third ++
          rest) =
      some [first, second, third] := by
  have fits : Fits messagePattern [first, second, third] :=
    .literal _ (.run first firstRun.nonempty firstRun.all
      (.literal _ (.run second secondRun.nonempty secondRun.all
        (.literal _ (.run third thirdRun.nonempty thirdRun.all .nil)))))
  have key : ∀ (word : String) (more : Bytes) (c : UInt8), (ascii word).head? = some c →
      isDigit c = false → ∀ symbol, (ascii word ++ more).head? = some symbol →
        isDigit symbol = false := by
    intro word more c starts notDigit symbol head
    have same : (ascii word ++ more).head? = some c := by
      rw [List.head?_append, starts]
      rfl
    rw [← Option.some.inj (same.symm.trans head)]
    exact notDigit
  have greedy : Greedy rest messagePattern [first, second, third] := by
    refine ⟨?_, ?_, ?_, trivial⟩
    · simp only [fill, List.append_assoc]
      exact key "current:" _ 99 (by decide) (by decide)
    · simp only [fill, List.append_assoc]
      exact key "retrans:" _ 114 (by decide) (by decide)
    · simpa [fill] using stop
  have here := matchHere_fill fits rest greedy
  apply search_of_matchHere
  simpa [messagePattern, fill] using here

/-! ### Facts about the conversions -/

theorem stoll_digits {digits : Bytes} (run : DigitRun digits) :
    stoll digits =
      if value digits < 2 ^ 63 then .ok (Int64.ofNat (value digits)) else .error .outOfRange := by
  obtain ⟨head, rest, rfl⟩ := List.exists_cons_of_ne_nil run.nonempty
  have digit := run.all head List.mem_cons_self
  obtain ⟨low, high⟩ := (isDigit_iff head).mp digit
  have notSpace : isSpace head = false := by
    simp only [isSpace, Bool.or_eq_false_iff, Bool.and_eq_false_iff, decide_eq_false_iff_not,
      UInt8.le_iff_toNat_le, ← UInt8.toNat_inj]
    have : (32 : UInt8).toNat = 32 := rfl
    have : (9 : UInt8).toNat = 9 := rfl
    have : (13 : UInt8).toNat = 13 := rfl
    omega
  have unsigned : readSign (head :: rest) = (false, head :: rest) := by
    unfold readSign
    split
    · simp_all
    · simp_all
    · rfl
  have whole : (head :: rest).takeWhile isDigit = head :: rest := by
    rw [List.takeWhile_eq_self_iff]
    exact run.all
  have trimmed : (head :: rest).dropWhile isSpace = head :: rest := by
    rw [List.dropWhile_cons_of_neg (by simp [notSpace])]
  simp only [stoll, trimmed, unsigned, whole, if_neg run.nonempty, Bool.false_eq_true, if_false]
  by_cases small : value (head :: rest) < 2 ^ 63
  · rw [if_pos small, if_neg (by omega)]
    rfl
  · rw [if_neg small, if_pos (by omega)]

end KcpTest.Message
