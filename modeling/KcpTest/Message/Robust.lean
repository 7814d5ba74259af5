import KcpTest.Message.Echo

/-!
Contract: which messages a peer can send without raising an exception.

Owns: the path of a message from the handler to the consumer's conversion, and
the exact condition under which no conversion throws.
-/

set_option autoImplicit false

namespace KcpTest.Message

open KcpTest.Library.Pattern KcpTest.Library.Decimal

/-- No exception leaves the handling of `content` in either thread: the parser
assigns nothing or everything, the handler returns, and the consumer converts
the data it is sent. -/
structure Robust (content : Bytes) : Prop where
  parsed : ∀ fields : Fields,
    (search messagePattern content = none ∧ parseWithRegex content fields = (fields, none)) ∨
      ∃ (first second third : Bytes) (index retrans : Int64),
        search messagePattern content = some [first, second, third] ∧
        stoll first = .ok index ∧ stoll third = .ok retrans ∧
        parseWithRegex content fields =
          ({ index := index.toInt32, data := second, retrans := retrans.toInt32 }, none)
  handled : ∃ action, handle content = .ok action
  converted : ∀ index data, handle content = .ok (.sendMessage index data) →
    ∃ clock, stoll data = .ok clock

/-- The numbers of a match fit the conversions made of them: `index` and
`retrans` always, the data when it goes on to the consumer. -/
def Convertible (content : Bytes) : Prop :=
  ∀ first second third, search messagePattern content = some [first, second, third] →
    value first < 2 ^ 63 ∧ value third < 2 ^ 63 ∧
      (narrow (value first) ≠ -1 → narrow (value third) ≠ 0 → value second < 2 ^ 63)

theorem stoll_digits_isOk {digits : Bytes} (run : DigitRun digits) :
    (∃ result, stoll digits = .ok result) ↔ value digits < 2 ^ 63 := by
  rw [stoll_digits run]
  by_cases small : value digits < 2 ^ 63
  · rw [if_pos small]
    exact iff_of_true ⟨_, rfl⟩ small
  · rw [if_neg small]
    refine iff_of_false ?_ small
    intro ⟨result, same⟩
    cases same

/-- Without a match the handler reports a malformed message. -/
theorem Robust.of_no_match {content : Bytes}
    (noMatch : search messagePattern content = none) : Robust content := by
  have unassigned : ∀ fields, parseWithRegex content fields = (fields, none) := fun fields => by
    simp only [parseWithRegex, noMatch]
  have malformed : handle content = .ok .malformed := by
    simp [handle, unassigned, unparsed]
  refine
    { parsed := fun fields => Or.inl ⟨noMatch, unassigned fields⟩
      handled := ⟨_, malformed⟩
      converted := ?_ }
  intro index data sent
  rw [malformed] at sent
  simp at sent

/-- With a match the three conversions decide. -/
theorem robust_iff_of_match {content first second third : Bytes}
    (found : search messagePattern content = some [first, second, third]) :
    Robust content ↔
      value first < 2 ^ 63 ∧ value third < 2 ^ 63 ∧
        (narrow (value first) ≠ -1 → narrow (value third) ≠ 0 → value second < 2 ^ 63) := by
  obtain ⟨firstRun, secondRun, thirdRun, -⟩ := digitRuns_of_search found
  constructor
  · intro robust
    rcases robust.parsed unparsed with
      ⟨noMatch, -⟩ | ⟨d1, d2, d3, index, retrans, again, firstOk, thirdOk, -⟩
    · rw [noMatch] at found
      simp at found
    · obtain ⟨rfl, rfl, rfl⟩ : first = d1 ∧ second = d2 ∧ third = d3 := by
        simpa using found.symm.trans again
      have firstSmall := (stoll_digits_isOk firstRun).mp ⟨index, firstOk⟩
      have thirdSmall := (stoll_digits_isOk thirdRun).mp ⟨retrans, thirdOk⟩
      refine ⟨firstSmall, thirdSmall, fun notMinus notZero => ?_⟩
      have sent := handle_of_match found firstSmall thirdSmall
      rw [if_neg notMinus, if_neg notZero] at sent
      exact (stoll_digits_isOk secondRun).mp (robust.converted _ _ sent)
  · intro ⟨firstSmall, thirdSmall, secondSmall⟩
    have handled := handle_of_match found firstSmall thirdSmall
    refine { parsed := fun fields => Or.inr ?_, handled := ?_, converted := ?_ }
    · obtain ⟨index, firstOk⟩ := (stoll_digits_isOk firstRun).mpr firstSmall
      obtain ⟨retrans, thirdOk⟩ := (stoll_digits_isOk thirdRun).mpr thirdSmall
      refine ⟨first, second, third, index, retrans, found, firstOk, thirdOk, ?_⟩
      simp only [parseWithRegex, found, firstOk, thirdOk]
    · rw [handled]
      split
      · exact ⟨_, rfl⟩
      · split <;> exact ⟨_, rfl⟩
    · intro index data sent
      rw [handled] at sent
      split at sent
      · simp at sent
      · split at sent
        · simp at sent
        · rename_i notMinus notZero
          obtain ⟨-, rfl⟩ : narrow (value first) = index ∧ second = data := by simpa using sent
          exact (stoll_digits_isOk secondRun).mpr (secondSmall notMinus notZero)

/-- Exactly the messages whose numbers fit are handled without an exception. -/
theorem robust_iff_convertible (message beyond : Bytes) :
    Robust (rcvBufString message beyond) ↔ Convertible (rcvBufString message beyond) := by
  generalize rcvBufString message beyond = content
  cases found : search messagePattern content with
  | none =>
      refine iff_of_true (Robust.of_no_match found) ?_
      intro first second third again
      rw [found] at again
      simp at again
  | some captures =>
      obtain ⟨first, second, third, rfl, -⟩ := search_messagePattern found
      rw [robust_iff_of_match found]
      constructor
      · intro fits d1 d2 d3 again
        obtain ⟨rfl, rfl, rfl⟩ : first = d1 ∧ second = d2 ∧ third = d3 := by
          simpa using found.symm.trans again
        exact fits
      · exact fun convertible => convertible first second third found

/-- A peer can end the process with one message whose index is too long. -/
theorem not_robust_long_index :
    ¬ ∀ message beyond : Bytes, Robust (rcvBufString message beyond) := by
  intro robust
  obtain ⟨action, handled⟩ :=
    (robust (ascii "index:99999999999999999999current:1retrans:0") []).handled
  have threw : handle (rcvBufString (ascii "index:99999999999999999999current:1retrans:0") []) =
      .error .outOfRange := by decide
  rw [threw] at handled
  simp at handled

end KcpTest.Message
