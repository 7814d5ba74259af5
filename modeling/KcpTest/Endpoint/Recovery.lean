import KcpTest.Library.Progress
import KcpTest.Endpoint.Windows

/-!
Contract: two endpoints that send nothing new.

Owns: the runs in which both programs only update, receive and take datagrams of
each other, at clocks that do not go back; what these runs keep; what is on the
wire when such a run starts; and the invariant of a pair of endpoints they start
from.
-/

set_option autoImplicit false

namespace KcpTest.Endpoint

open KcpTest.Kcp KcpTest.Library KcpTest.Library.SlidingWindow Relation

/-! ### Runs without new messages -/

/-- Two endpoints at a clock, counted without a wrap-around. -/
structure Moment where
  clock : ℕ
  pair : Pair

/-- A call without a new message, and the clock after it. An update reads the
clock, which has moved on or not. -/
inductive Call.Next (clock : ℕ) : Call → ℕ → Prop
  | update (later : ℕ) (onward : clock ≤ later) :
      Next clock (.update (UInt32.ofNat later)) later
  | recv (len : Int32) : Next clock (.recv len) clock
  | input (data : Datagram) : Next clock (.input data) clock

inductive Recovery : Moment → Moment → Prop
  | near (moment : Moment) (call : Call) (later : ℕ) (next : call.Next moment.clock later)
      (allowed : call.Allowed moment.pair.far.wire) :
      Recovery moment ⟨later, { moment.pair with near := moment.pair.near.call call }⟩
  | far (moment : Moment) (call : Call) (later : ℕ) (next : call.Next moment.clock later)
      (allowed : call.Allowed moment.pair.near.wire) :
      Recovery moment ⟨later, { moment.pair with far := moment.pair.far.call call }⟩

/-- Any number of such calls in any order. -/
abbrev Recovers : Moment → Moment → Prop := ReflTransGen Recovery

/-- The recovery is one of the runs of the two endpoints. -/
theorem Recovery.toStep {moment moment' : Moment} (recovery : Recovery moment moment') :
    Step moment.pair moment'.pair := by
  cases recovery with
  | near call later next allowed => exact Step.near moment.pair call allowed
  | far call later next allowed => exact Step.far moment.pair call allowed

/-- Seen from the other end. -/
def Pair.swap (pair : Pair) : Pair := ⟨pair.far, pair.near⟩

def Moment.swap (moment : Moment) : Moment := ⟨moment.clock, moment.pair.swap⟩

theorem Recovery.swap {moment moment' : Moment} (recovery : Recovery moment moment') :
    Recovery moment.swap moment'.swap := by
  cases recovery with
  | near call later next allowed => exact Recovery.far moment.swap call later next allowed
  | far call later next allowed => exact Recovery.near moment.swap call later next allowed

theorem Recovers.swap {moment moment' : Moment} (run : Recovers moment moment') :
    Recovers moment.swap moment'.swap := by
  induction run with
  | refl => exact ReflTransGen.refl
  | tail _ recovery inductionHypothesis => exact inductionHypothesis.tail recovery.swap

/-! ### What was on the wire before -/

/-- An endpoint whose datagrams are all lost. -/
def Peer.unheard (peer : Peer) : Peer := { peer with wire := [] }

/-- Nothing either endpoint has emitted will arrive any more. -/
def Pair.unheard (pair : Pair) : Pair := ⟨pair.near.unheard, pair.far.unheard⟩

/-- An endpoint that has emitted the datagrams of `earlier` before its own. -/
def Peer.after (earlier peer : Peer) : Peer := { peer with wire := earlier.wire ++ peer.wire }

def Moment.after (earlier : Pair) (moment : Moment) : Moment :=
  ⟨moment.clock, earlier.near.after moment.pair.near, earlier.far.after moment.pair.far⟩

theorem Peer.after_unheard (peer : Peer) : peer.after peer.unheard = peer := by
  simp [Peer.after, Peer.unheard]

theorem Moment.after_unheard (clock : ℕ) (pair : Pair) :
    Moment.after pair ⟨clock, pair.unheard⟩ = ⟨clock, pair⟩ := by
  simp only [Moment.after, Pair.unheard, Peer.after_unheard]

theorem Peer.after_call (earlier peer : Peer) (call : Call) :
    earlier.after (peer.call call) = (earlier.after peer).call call := by
  simp [Peer.after, Peer.call]

theorem Call.Allowed.after {wire : List Datagram} {call : Call} (allowed : call.Allowed wire)
    (earlier : List Datagram) : call.Allowed (earlier ++ wire) := by
  cases call with
  | input data => exact List.mem_append_right earlier allowed
  | recv len => exact allowed
  | _ => trivial

/-- Datagrams that do not arrive are in the way of nothing. -/
theorem Recovery.after (earlier : Pair) {moment moment' : Moment}
    (recovery : Recovery moment moment') :
    Recovery (moment.after earlier) (moment'.after earlier) := by
  cases recovery with
  | near call later next allowed =>
      simp only [Moment.after, Peer.after_call]
      exact Recovery.near (moment.after earlier) call later next (allowed.after _)
  | far call later next allowed =>
      simp only [Moment.after, Peer.after_call]
      exact Recovery.far (moment.after earlier) call later next (allowed.after _)

/-- A run in which nothing of what was on the wire arrives is a run of the pair. -/
theorem Recovers.after {clock : ℕ} {pair : Pair} {moment : Moment}
    (run : Recovers ⟨clock, pair.unheard⟩ moment) :
    Recovers ⟨clock, pair⟩ (moment.after pair) := by
  have lifted : Recovers (Moment.after pair ⟨clock, pair.unheard⟩) (moment.after pair) :=
    ReflTransGen.lift (Moment.after pair) (fun _ _ => Recovery.after pair) _ _ run
  rw [Moment.after_unheard] at lifted
  exact lifted

/-! ### What such a run keeps -/

theorem Call.Next.accepted {clock later : ℕ} {call : Call} (next : call.Next clock later)
    (kcp : Kcpcb) : call.accepted kcp = [] := by
  cases next <;> rfl

/-- Nothing waits to be sent or acknowledged. -/
def Idle (peer : Peer) : Prop := peer.kcp.sndBuf = [] ∧ peer.kcp.sndQueue = []

theorem ikcpWaitsnd_eq_zero_iff (peer : Peer) : ikcpWaitsnd peer.kcp = 0 ↔ Idle peer := by
  rw [ikcpWaitsnd, Nat.add_eq_zero_iff, List.length_eq_zero_iff, List.length_eq_zero_iff]
  exact Iff.rfl

/-- One endpoint later in a run without new messages. -/
structure Later (peer peer' : Peer) : Prop where
  accepted : peer'.accepted = peer.accepted
  received : peer.received <+: peer'.received
  idle : Idle peer → Idle peer'

theorem Later.refl (peer : Peer) : Later peer peer := ⟨rfl, List.prefix_refl _, id⟩

theorem Later.trans {first second third : Peer} (before : Later first second)
    (after : Later second third) : Later first third where
  accepted := after.accepted.trans before.accepted
  received := before.received.trans after.received
  idle := after.idle ∘ before.idle

theorem FlushEffect.idle {kcp kcp' : Kcpcb} {moved : List Segment}
    (effect : FlushEffect kcp kcp' moved) (buf : kcp.sndBuf = []) (queue : kcp.sndQueue = []) :
    kcp'.sndBuf = [] ∧ kcp'.sndQueue = [] := by
  obtain ⟨none', rest⟩ := List.append_eq_nil_iff.mp (effect.queue.symm.trans queue)
  have cores := effect.sndBuf
  rw [buf, none'] at cores
  exact ⟨List.map_eq_nil_iff.mp cores, rest⟩

theorem Later.call {clock later : ℕ} {call : Call} (next : call.Next clock later) (peer : Peer) :
    Later peer (peer.call call) := by
  refine { accepted := ?_, received := List.prefix_append _ _, idle := ?_ }
  · rw [Peer.call, next.accepted, List.append_nil]
  · rintro ⟨buf, queue⟩
    cases next with
    | update later onward =>
        obtain ⟨moved, effect, -⟩ := ikcpUpdate_effect peer.kcp (UInt32.ofNat later)
        exact FlushEffect.idle effect buf queue
    | recv len =>
        have same := ikcpRecv_sameSending peer.kcp len
        exact ⟨same.sndBuf.trans buf, same.sndQueue.trans queue⟩
    | input data =>
        have keeps := ikcpInput_keepsOutbound peer.kcp data
        refine ⟨?_, keeps.sndQueue.trans queue⟩
        have none' : (ikcpInput peer.kcp data).2.sndBuf.map Segment.core = [] := by
          rw [List.eq_nil_iff_forall_not_mem]
          intro core member
          have kept := keeps.kept core member
          rw [buf] at kept
          exact absurd kept List.not_mem_nil
        exact List.map_eq_nil_iff.mp none'

/-- Both endpoints later in such a run. -/
structure Kept (pair pair' : Pair) : Prop where
  near : Later pair.near pair'.near
  far : Later pair.far pair'.far

theorem Recovers.kept {moment moment' : Moment} (run : Recovers moment moment') :
    Kept moment.pair moment'.pair := by
  induction run with
  | refl => exact ⟨Later.refl _, Later.refl _⟩
  | tail _ recovery inductionHypothesis =>
      obtain ⟨near, far⟩ := inductionHypothesis
      cases recovery with
      | near call later next allowed => exact ⟨near.trans (Later.call next _), far⟩
      | far call later next allowed => exact ⟨near, far.trans (Later.call next _)⟩

/-! ### Live pairs -/

/-- The segments of everything an endpoint got accepted. -/
def Peer.segments (peer : Peer) : ℕ := (peer.accepted.flatMap Accepted.segments).length

/-- A reachable pair with fewer than `2 ^ 31` segments accepted either way. -/
structure Live (pair : Pair) : Prop where
  near : Healthy pair.near.kcp
  far : Healthy pair.far.kcp
  coupled : ∃ out inc, Coupled pair.near pair.far out inc
  fewNear : pair.near.segments < 2 ^ 31
  fewFar : pair.far.segments < 2 ^ 31
  shortNear : ∀ entry ∈ pair.near.accepted, entry.message.length < 2 ^ 31
  shortFar : ∀ entry ∈ pair.far.accepted, entry.message.length < 2 ^ 31

theorem Live.swap {pair : Pair} (live : Live pair) : Live pair.swap where
  near := live.far
  far := live.near
  coupled := by
    obtain ⟨out, inc, coupled⟩ := live.coupled
    exact ⟨inc, out, coupled.symm⟩
  fewNear := live.fewFar
  fewFar := live.fewNear
  shortNear := live.shortFar
  shortFar := live.shortNear

/-- What is on the wire is not needed. -/
theorem Live.unheard {pair : Pair} (live : Live pair) : Live pair.unheard where
  near := live.near
  far := live.far
  coupled := by
    obtain ⟨out, inc, coupled⟩ := live.coupled
    obtain ⟨accepted, spelled, received⟩ := coupled.sends
    obtain ⟨acceptedBack, spelledBack, receivedBack⟩ := coupled.returns
    exact
      ⟨out, inc,
        { nearLocal := coupled.nearLocal
          farLocal := coupled.farLocal
          sends := ⟨accepted, spelled, received⟩
          returns := ⟨acceptedBack, spelledBack, receivedBack⟩
          nearWire := by simp [Pair.unheard, Peer.unheard]
          farWire := by simp [Pair.unheard, Peer.unheard] }⟩
  fewNear := live.fewNear
  fewFar := live.fewFar
  shortNear := live.shortNear
  shortFar := live.shortFar

theorem Live.callNear {pair : Pair} (live : Live pair) {clock later : ℕ} {call : Call}
    (next : call.Next clock later) (allowed : call.Allowed pair.far.wire) :
    Live { pair with near := pair.near.call call } := by
  have same : (pair.near.call call).accepted = pair.near.accepted := (Later.call next _).accepted
  have few : (pair.near.call call).segments < 2 ^ 31 := by
    rw [Peer.segments, same]
    exact live.fewNear
  obtain ⟨out, inc, coupled⟩ := live.coupled
  exact
    { near := live.near.run call
      far := live.far
      coupled := coupled.call call allowed (Nat.lt_of_le_of_lt (Nat.sub_le _ _) few)
        (Nat.lt_of_le_of_lt (Nat.sub_le _ _) live.fewFar)
      fewNear := few
      fewFar := live.fewFar
      shortNear := same ▸ live.shortNear
      shortFar := live.shortFar }

theorem Live.recovery {moment moment' : Moment} (recovery : Recovery moment moment')
    (live : Live moment.pair) : Live moment'.pair := by
  cases recovery with
  | near call later next allowed => exact live.callNear next allowed
  | far call later next allowed => exact (live.swap.callNear next allowed).swap

theorem Live.recovers {moment moment' : Moment} (run : Recovers moment moment')
    (live : Live moment.pair) : Live moment'.pair := by
  have step : ∀ before after : Moment, Recovery before after →
      Live before.pair → Live after.pair := fun _ _ => Live.recovery
  exact Progress.keeps_of_run step run live

/-- The length of a message is an `int`. -/
theorem Call.accepted_short (kcp : Kcpcb) (call : Call) :
    ∀ entry ∈ call.accepted kcp, entry.message.length < 2 ^ 31 := by
  intro entry member
  cases call with
  | send buffer len before after =>
      simp only [Call.accepted] at member
      split at member
      · rw [List.mem_singleton.mp member, List.length_take]
        have := Int32.toInt_lt len
        omega
      · exact absurd member List.not_mem_nil
  | update current => exact absurd member List.not_mem_nil
  | recv len => exact absurd member List.not_mem_nil
  | input data => exact absurd member List.not_mem_nil

theorem Reachable.short {pair : Pair} (reachable : Reachable pair) :
    (∀ entry ∈ pair.near.accepted, entry.message.length < 2 ^ 31) ∧
      ∀ entry ∈ pair.far.accepted, entry.message.length < 2 ^ 31 := by
  have more : ∀ (peer : Peer) (call : Call),
      (∀ entry ∈ peer.accepted, entry.message.length < 2 ^ 31) →
      ∀ entry ∈ (peer.call call).accepted, entry.message.length < 2 ^ 31 := by
    intro peer call short entry member
    rcases List.mem_append.mp member with old | new
    · exact short entry old
    · exact Call.accepted_short peer.kcp call entry new
  induction reachable with
  | refl => exact ⟨by simp [Pair.start, Peer.start], by simp [Pair.start, Peer.start]⟩
  | tail _ step inductionHypothesis =>
      obtain ⟨near, far⟩ := inductionHypothesis
      cases step with
      | near call allowed => exact ⟨more _ call near, far⟩
      | far call allowed => exact ⟨near, more _ call far⟩

theorem Reachable.live {pair : Pair} (reachable : Reachable pair)
    (fewNear : pair.near.segments < 2 ^ 31) (fewFar : pair.far.segments < 2 ^ 31) :
    Live pair := by
  obtain ⟨nearHealthy, farHealthy⟩ := Reachable.healthy reachable
  obtain ⟨shortNear, shortFar⟩ := Reachable.short reachable
  exact
    { near := nearHealthy
      far := farHealthy
      coupled := Reachable.coupled reachable (Nat.lt_of_le_of_lt (Nat.sub_le _ _) fewNear)
        (Nat.lt_of_le_of_lt (Nat.sub_le _ _) fewFar)
      fewNear := fewNear
      fewFar := fewFar
      shortNear := shortNear
      shortFar := shortFar }

end KcpTest.Endpoint
