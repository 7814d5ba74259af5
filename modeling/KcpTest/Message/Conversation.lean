import KcpTest.Message.Echo

/-!
Contract: the echo protocol of two endpoints over a whole exchange.

Owns: two stations that send originals and handle what arrives, the invariant
that ties every echo to the original it answers, and the protocol theorem.

Does **not** own delivery: an inbox hands over each letter once and in order.
-/

set_option autoImplicit false

namespace KcpTest.Message

open KcpTest.Library.Pattern KcpTest.Library.Decimal

/-! ### Stations -/

/-- A message in flight, with the original it answers if it is an echo. -/
structure Letter where
  text : Bytes
  answers : Option Bytes

/-- An endpoint: the originals it sent, the letters in flight to it, the letters
it answered and the pairs it passed to `sendMessage`, each in order. -/
structure Station where
  sent : List Bytes
  inbox : List Letter
  answered : List Bytes
  analysed : List (Int32 × Bytes)

def Station.start : Station where
  sent := []
  inbox := []
  answered := []
  analysed := []

/-- A message to be echoed: its numbers fit an `int` and `retrans` is zero. -/
structure Original (message : Bytes) : Prop where
  short : message.length ≤ 2047
  parses : ∃ first second third,
    search messagePattern (rcvBufString message []) = some [first, second, third] ∧
      value first < 2 ^ 31 ∧ value third = 0

/-- The pair a message carries, as `parseWithRegex` reads it. -/
def pairOf (message : Bytes) : Int32 × Bytes :=
  let fields := (parseWithRegex (rcvBufString message []) unparsed).1
  (fields.index, fields.data)

/-- A station handles a letter: itself afterwards, and the letters it sends. -/
def Station.deliver (station : Station) (letter : Letter) (beyond : Bytes) :
    Station × List Letter :=
  match handle (rcvBufString letter.text beyond) with
  | .ok (.reply text) =>
      ({ station with answered := station.answered ++ [letter.text] },
        [{ text := text, answers := some letter.text }])
  | .ok (.sendMessage index data) =>
      ({ station with analysed := station.analysed ++ [(index, data)] }, [])
  | .ok .malformed => (station, [])
  | .error _ => (station, [])

/-- One step of an exchange: the first station sends an original or handles its
next letter, or the second one does. -/
inductive Turn : Station → Station → Station → Station → Prop
  | originate (near far : Station) (message : Bytes) (original : Original message) :
      Turn near far { near with sent := near.sent ++ [message] }
        { far with inbox := far.inbox ++ [{ text := message, answers := none }] }
  | deliver (near far : Station) (letter : Letter) (rest : List Letter) (beyond : Bytes)
      (atHead : near.inbox = letter :: rest) :
      Turn near far (({ near with inbox := rest } : Station).deliver letter beyond).1
        { far with
          inbox := far.inbox ++ (({ near with inbox := rest } : Station).deliver letter beyond).2 }
  | other {near far near' far' : Station} (turn : Turn far near far' near') :
      Turn near far near' far'

/-- Any number of turns from the start. -/
inductive Exchange : Station → Station → Prop
  | start : Exchange Station.start Station.start
  | turn {near far near' far' : Station} (before : Exchange near far)
      (turn : Turn near far near' far') : Exchange near' far'

/-! ### What holds over an exchange -/

/-- The originals among the letters in flight. -/
def originals (inbox : List Letter) : List Bytes :=
  (inbox.filter fun letter => letter.answers.isNone).map Letter.text

/-- The originals answered by the echoes in flight. -/
def answersIn (inbox : List Letter) : List Bytes := inbox.filterMap Letter.answers

/-- What one station sends and the other answers. -/
structure Echoed (originator answerer : Station) : Prop where
  /-- Each original is answered once, in order, and nothing else is answered. -/
  once : answerer.answered ++ originals answerer.inbox = originator.sent
  /-- The pairs analysed at the originator are those it sent, in order. -/
  equal : originator.analysed ++ (answersIn originator.inbox).map pairOf =
    answerer.answered.map pairOf

/-- The echo of an original. -/
def echoOf (message : Bytes) : Bytes := echoBytes (pairOf message).1 (pairOf message).2

/-- A letter is an original or the echo of one. -/
inductive Letter.Genuine : Letter → Prop
  | original {message : Bytes} (original : Original message) :
      Letter.Genuine { text := message, answers := none }
  | echo {message : Bytes} (original : Original message) :
      Letter.Genuine { text := echoOf message, answers := some message }

/-- The invariant of an exchange. -/
structure Consistent (near far : Station) : Prop where
  nearEchoed : Echoed near far
  farEchoed : Echoed far near
  nearGenuine : ∀ letter ∈ near.inbox, letter.Genuine
  farGenuine : ∀ letter ∈ far.inbox, letter.Genuine

theorem Consistent.symm {near far : Station} (consistent : Consistent near far) :
    Consistent far near :=
  ⟨consistent.farEchoed, consistent.nearEchoed, consistent.farGenuine, consistent.nearGenuine⟩

theorem Consistent.start : Consistent Station.start Station.start where
  nearEchoed := ⟨rfl, rfl⟩
  farEchoed := ⟨rfl, rfl⟩
  nearGenuine := by simp [Station.start]
  farGenuine := by simp [Station.start]

/-! ### One letter -/

/-- The memory behind the buffer plays no role for a message that fits. -/
theorem rcvBufString_beyond {message : Bytes} (short : message.length ≤ 2047)
    (beyond : Bytes) : rcvBufString message beyond = rcvBufString message [] := by
  have fits : message.length < bufferSize := Nat.lt_succ_of_le short
  simp only [rcvBufString, if_pos fits]

/-- An original is answered by the echo of its pair. -/
theorem Original.handled {message : Bytes} (original : Original message) (beyond : Bytes) :
    handle (rcvBufString message beyond) = .ok (.reply (echoOf message)) ∧
      ∀ beyond, handle (rcvBufString (echoOf message) beyond) =
        .ok (.sendMessage (pairOf message).1 (pairOf message).2) := by
  obtain ⟨first, second, third, found, firstSmall, isOriginal⟩ := original.parses
  have pair : pairOf message = (narrow (value first), second) := by
    simp only [pairOf, parseWithRegex_of_match _ found (by omega) (by omega : value third < 2 ^ 63)]
  have short := (rcvBufString_length_le original.short []).trans original.short
  obtain ⟨text, replied, analysed⟩ :=
    (handle_match short found firstSmall (by omega)).original isOriginal
  have handled := handle_of_match found (by omega) (by omega : value third < 2 ^ 63)
  have same : text = echoBytes (narrow (value first)) second := by
    rw [replied] at handled
    split at handled
    · simp at handled
    · split at handled
      · simpa using handled
      · simp at handled
  rw [rcvBufString_beyond original.short, echoOf, pair, replied, ← same]
  exact ⟨rfl, analysed⟩

/-- An original that arrives is answered. -/
theorem Station.deliver_original (station : Station) {message : Bytes}
    (original : Original message) (beyond : Bytes) :
    station.deliver { text := message, answers := none } beyond =
      ({ station with answered := station.answered ++ [message] },
        [{ text := echoOf message, answers := some message }]) := by
  rw [Station.deliver, (original.handled beyond).1]

/-- An echo that arrives is analysed and not answered. -/
theorem Station.deliver_echo (station : Station) {message : Bytes}
    (original : Original message) (beyond : Bytes) :
    station.deliver { text := echoOf message, answers := some message } beyond =
      ({ station with analysed := station.analysed ++ [pairOf message] }, []) := by
  rw [Station.deliver, (original.handled beyond).2 beyond]

theorem Consistent.deliver {near far : Station} (consistent : Consistent near far)
    {letter : Letter} {rest : List Letter} (beyond : Bytes) (atHead : near.inbox = letter :: rest) :
    Consistent (({ near with inbox := rest } : Station).deliver letter beyond).1
      { far with
        inbox := far.inbox ++
          (({ near with inbox := rest } : Station).deliver letter beyond).2 } := by
  have nearOnce := consistent.farEchoed.once
  have nearEqual := consistent.nearEchoed.equal
  have genuine := consistent.nearGenuine letter (atHead ▸ List.mem_cons_self)
  have restGenuine : ∀ other ∈ rest, other.Genuine := fun other member =>
    consistent.nearGenuine other (atHead ▸ List.mem_cons_of_mem _ member)
  rw [atHead] at nearOnce nearEqual
  cases genuine with
  | @original message original =>
      rw [Station.deliver_original _ original]
      refine
        { nearEchoed := ⟨?_, nearEqual⟩, farEchoed := ⟨?_, ?_⟩, nearGenuine := restGenuine
          farGenuine := ?_ }
      · simpa [originals] using consistent.nearEchoed.once
      · simpa [originals] using nearOnce
      · simp [answersIn, ← consistent.farEchoed.equal]
      · intro other member
        rcases List.mem_append.mp member with old | new
        · exact consistent.farGenuine other old
        · rw [List.mem_singleton.mp new]
          exact Letter.Genuine.echo original
  | @echo message original =>
      rw [Station.deliver_echo _ original]
      refine
        { nearEchoed := ⟨?_, ?_⟩, farEchoed := ⟨nearOnce, ?_⟩, nearGenuine := restGenuine
          farGenuine := ?_ }
      · simpa using consistent.nearEchoed.once
      · simpa [answersIn] using nearEqual
      · simpa using consistent.farEchoed.equal
      · simpa using consistent.farGenuine

theorem Consistent.originate {near far : Station} (consistent : Consistent near far)
    {message : Bytes} (original : Original message) :
    Consistent { near with sent := near.sent ++ [message] }
      { far with inbox := far.inbox ++ [{ text := message, answers := none }] } where
  nearEchoed :=
    { once := by
        rw [← consistent.nearEchoed.once]
        simp [originals]
      equal := consistent.nearEchoed.equal }
  farEchoed :=
    { once := consistent.farEchoed.once
      equal := by simpa [answersIn] using consistent.farEchoed.equal }
  nearGenuine := consistent.nearGenuine
  farGenuine := fun letter member => by
    rcases List.mem_append.mp member with old | new
    · exact consistent.farGenuine letter old
    · rw [List.mem_singleton.mp new]
      exact Letter.Genuine.original original

/-- A turn keeps the invariant. -/
theorem Consistent.turn {near far near' far' : Station} (turn : Turn near far near' far') :
    Consistent near far → Consistent near' far' := by
  induction turn with
  | originate near far message original =>
      exact fun consistent => consistent.originate original
  | deliver near far letter rest beyond atHead =>
      exact fun consistent => consistent.deliver beyond atHead
  | other turn inductionHypothesis =>
      exact fun consistent => (inductionHypothesis consistent.symm).symm

theorem Exchange.consistent {near far : Station} (exchange : Exchange near far) :
    Consistent near far := by
  induction exchange with
  | start => exact Consistent.start
  | turn before turn inductionHypothesis => exact Consistent.turn turn inductionHypothesis

/-! ### The protocol -/

/-- The handler takes one action on a message whose numbers fit an `int`, an
echo is analysed as the pair it answers, and so over any exchange each original
is echoed once, no echo is echoed, and the originator analyses what it sent. -/
theorem echo_protocol :
    (∀ (message beyond first second third : Bytes), message.length ≤ 2047 →
      search messagePattern (rcvBufString message beyond) = some [first, second, third] →
      value first ≤ 2 ^ 31 - 1 → value third ≤ 2 ^ 31 - 1 →
      EchoedOrAnalysed (rcvBufString message beyond) first second third) ∧
    ∀ near far : Station, Exchange near far → Echoed near far ∧ Echoed far near := by
  constructor
  · intro message beyond first second third short found firstSmall thirdSmall
    exact handle_match ((rcvBufString_length_le short beyond).trans short) found
      (by omega) (by omega)
  · intro near far exchange
    exact ⟨exchange.consistent.nearEchoed, exchange.consistent.farEchoed⟩

/-- An original, its echo, and the pair that is analysed for it. -/
theorem echo_protocol_seven :
    EchoedOrAnalysed (rcvBufString (ascii "index:7current:42retrans:0") []) (ascii "7")
        (ascii "42") (ascii "0") ∧
      ∃ near far : Station, near.analysed = [(7, ascii "42")] ∧
        Echoed near far ∧ Echoed far near := by
  have original : Original (ascii "index:7current:42retrans:0") :=
    ⟨by decide, ascii "7", ascii "42", ascii "0", by decide, by decide, by decide⟩
  refine ⟨echo_protocol.1 _ _ _ _ _ (by decide) (by decide) (by decide) (by decide), ?_⟩
  have sent := Exchange.start.turn (Turn.originate Station.start Station.start _ original)
  have answered := sent.turn (Turn.other (Turn.deliver _ _ _ [] [] rfl))
  have analysed := answered.turn (Turn.deliver _ _ _ [] [] rfl)
  exact ⟨_, _, by decide, echo_protocol.2 _ _ analysed⟩

end KcpTest.Message
