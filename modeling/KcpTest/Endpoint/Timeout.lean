import KcpTest.Endpoint.Output
import KcpTest.Kcp.RoundTrip

/-!
Contract: the retransmission timeout of an endpoint.

Owns: the samples a run of calls takes, `rx_rto` as a function of them, and the
runs in which it stays between 200 and 60000 milliseconds.

`createKCP` sets `rx_minrto` to 200 before `ikcp_nodelay` sets it to 30.
-/

set_option autoImplicit false

namespace KcpTest.Endpoint

open KcpTest.Kcp

/-! ### The samples of a run -/

/-- The clock of the control block after a call. -/
def Call.clock (current : UInt32) : Call → UInt32
  | .send _ _ _ after => clock32 after
  | .update now => now
  | .recv _ => current
  | .input _ => current

/-- The samples a call takes. -/
def Call.samples (current : UInt32) : Call → List Int32
  | .input data => rttSamples createKCP.conv current data
  | _ => []

/-- The samples a run takes, from a clock on. -/
def samplesOf (current : UInt32) : List Call → List Int32
  | [] => []
  | call :: calls => call.samples current ++ samplesOf (call.clock current) calls

/-- The timeout the samples of a run from the start call for. -/
def sampledTimeout (calls : List Call) : UInt32 :=
  ((samplesOf 0 calls).foldl Estimate.sample { srtt := 0, rttval := 0 }).timeout createKCP.interval

/-- In every state of the run, `rx_rto` is at least 200 and at most 60000. -/
def KeepsTimeout (calls : List Call) : Prop :=
  ∀ before, before <+: calls →
    200 ≤ (runCalls createKCP before).1.rxRto.toInt ∧
      (runCalls createKCP before).1.rxRto.toInt ≤ 60000

/-- Whenever a sample was taken, the samples call for a timeout of at least
200. -/
def SlowSamples (calls : List Call) : Prop :=
  ∀ before, before <+: calls → samplesOf 0 before = [] ∨ 200 ≤ sampledTimeout before

/-! ### One sample after the other -/

/-- One sample, with the configuration of an endpoint. -/
abbrev takeSample : Timing → Int32 → Timing :=
  Timing.sample createKCP.rxMinrto createKCP.interval

/-- The clock plays no part in the samples. -/
theorem foldl_takeSample_current (samples : List Int32) (timing : Timing) (current : UInt32) :
    samples.foldl takeSample { timing with current := current } =
      { samples.foldl takeSample timing with current := current } := by
  induction samples generalizing timing with
  | nil => rfl
  | cons rtt samples inductionHypothesis => exact inductionHypothesis (takeSample timing rtt)

theorem foldl_takeSample_estimate (samples : List Int32) (timing : Timing) :
    (samples.foldl takeSample timing).estimate =
      samples.foldl Estimate.sample timing.estimate := by
  induction samples generalizing timing with
  | nil => rfl
  | cons rtt samples inductionHypothesis => exact inductionHypothesis (takeSample timing rtt)

/-- The timeout an endpoint clamps an estimate to. -/
def clamped (estimate : Estimate) : Int32 :=
  (ibound createKCP.rxMinrto.toUInt32 (estimate.timeout createKCP.interval) ikcpRtoMax).toInt32

/-- After a sample, the timeout is the clamped one of the estimate. -/
theorem foldl_takeSample_rxRto {samples : List Int32} (some' : samples ≠ []) (timing : Timing) :
    (samples.foldl takeSample timing).rxRto =
      clamped (samples.foldl Estimate.sample timing.estimate) := by
  rcases List.eq_nil_or_concat samples with rfl | ⟨before, last, rfl⟩
  · exact absurd rfl some'
  · rw [List.concat_eq_append, List.foldl_append, List.foldl_append]
    show clamped ((before.foldl takeSample timing).estimate.sample last) = _
    rw [foldl_takeSample_estimate]
    rfl

/-- The clamp is from 30 to 60000, so it reaches 200 exactly from there on. -/
theorem clamped_bounds (estimate : Estimate) :
    (clamped estimate).toInt ≤ 60000 ∧
      (200 ≤ (clamped estimate).toInt ↔ 200 ≤ estimate.timeout createKCP.interval) := by
  unfold clamped
  generalize estimate.timeout createKCP.interval = timeout
  have floor : createKCP.rxMinrto.toUInt32.toNat = 30 := rfl
  have roof : ikcpRtoMax.toNat = 60000 := rfl
  have limit : (200 : UInt32).toNat = 200 := rfl
  have bounded : (ibound createKCP.rxMinrto.toUInt32 timeout ikcpRtoMax).toNat =
      min (max 30 timeout.toNat) 60000 := by
    unfold ibound imin imax
    simp only [UInt32.le_iff_toNat_le, ge_iff_le]
    split <;> split <;> omega
  have signed : (ibound createKCP.rxMinrto.toUInt32 timeout ikcpRtoMax).toInt32.toInt =
      (min (max 30 timeout.toNat) 60000 : Nat) := by
    show (ibound createKCP.rxMinrto.toUInt32 timeout ikcpRtoMax).toBitVec.toInt = _
    have value : (ibound createKCP.rxMinrto.toUInt32 timeout ikcpRtoMax).toBitVec.toNat =
        min (max 30 timeout.toNat) 60000 := bounded
    rw [BitVec.toInt_eq_toNat_of_lt (by omega), value]
  rw [signed, UInt32.le_iff_toNat_le, limit]
  omega

/-! ### Calls -/

theorem WellFormed.send_timing {kcp : Kcpcb} (formed : WellFormed kcp) (buffer : Bytes)
    (len : Int32) : (ikcpSend kcp buffer len).2.timing = kcp.timing := by
  rcases formed.ikcpSend_cases buffer len with ⟨-, same⟩ | ⟨segs, -, result, -, -⟩
  · rw [same]
  · rw [result]
    rfl

/-- A call sets the clock and takes its samples. -/
theorem WellFormed.run_timing {kcp : Kcpcb} (formed : WellFormed kcp) (call : Call) :
    (call.run kcp).1.timing =
      { (call.samples kcp.current).foldl takeSample kcp.timing with
        current := call.clock kcp.current } := by
  cases call with
  | send buffer len before after =>
      rw [Call.run, kcpSend_fst, ikcpUpdate_timing, kcpSendQueued,
        (formed.update _).send_timing, ikcpUpdate_timing]
      rfl
  | update current => exact ikcpUpdate_timing kcp current
  | recv len => exact ikcpRecv_timing kcp len
  | input data =>
      have minrto := congrArg Config.rxMinrto formed.config
      have interval := congrArg Config.interval formed.config
      simp only [Kcpcb.config] at minrto interval
      rw [Call.run, ikcpInput_timing, formed.conv, minrto, interval]
      exact foldl_takeSample_current _ kcp.timing kcp.current

theorem WellFormed.runCalls_timing {kcp : Kcpcb} (formed : WellFormed kcp) (calls : List Call) :
    ∃ current, (Endpoint.runCalls kcp calls).1.timing =
      { (samplesOf kcp.current calls).foldl takeSample kcp.timing with current := current } := by
  induction calls generalizing kcp with
  | nil => exact ⟨kcp.current, rfl⟩
  | cons call calls inductionHypothesis =>
      have first := formed.run_timing call
      have clock : (call.run kcp).1.current = call.clock kcp.current :=
        congrArg Timing.current first
      obtain ⟨current, rest⟩ := inductionHypothesis (formed.run call)
      refine ⟨current, ?_⟩
      show (Endpoint.runCalls (call.run kcp).1 calls).1.timing = _
      rw [rest, first, clock, foldl_takeSample_current, samplesOf, List.foldl_append]

/-! ### Runs -/

/-- In every state of an endpoint, the timeout is the initial one or the clamped
one of the samples. -/
theorem rxRto_eq (calls : List Call) :
    (runCalls createKCP calls).1.rxRto =
      if samplesOf 0 calls = [] then 200
      else clamped ((samplesOf 0 calls).foldl Estimate.sample { srtt := 0, rttval := 0 }) := by
  obtain ⟨current, timing⟩ := WellFormed.createKCP.runCalls_timing calls
  have rxRto : (runCalls createKCP calls).1.rxRto =
      ((samplesOf 0 calls).foldl takeSample createKCP.timing).rxRto :=
    congrArg Timing.rxRto timing
  rw [rxRto]
  split
  · rename_i none'
    rw [none']
    rfl
  · rename_i some'
    exact foldl_takeSample_rxRto some' createKCP.timing

/-- A state has a timeout from 200 to 60000 exactly when its samples call for
200 or more. -/
theorem rxRto_bounds_iff (calls : List Call) :
    (200 ≤ (runCalls createKCP calls).1.rxRto.toInt ∧
      (runCalls createKCP calls).1.rxRto.toInt ≤ 60000) ↔
      samplesOf 0 calls = [] ∨ 200 ≤ sampledTimeout calls := by
  rw [rxRto_eq]
  by_cases none' : samplesOf 0 calls = []
  · rw [if_pos none']
    exact iff_of_true (by decide) (Or.inl none')
  · obtain ⟨roof, floor⟩ := clamped_bounds
      ((samplesOf 0 calls).foldl Estimate.sample { srtt := 0, rttval := 0 })
    rw [if_neg none', floor]
    constructor
    · intro bounds
      exact Or.inr bounds.1
    · intro slow
      exact ⟨slow.resolve_left none', roof⟩

/-- For every run, the timeout stays from 200 to 60000 in all its states exactly
when its samples always call for 200 or more. -/
theorem keeps_timeout_iff (calls : List Call) : KeepsTimeout calls ↔ SlowSamples calls := by
  constructor
  · intro keeps before inside
    exact (rxRto_bounds_iff before).mp (keeps before inside)
  · intro slow before inside
    exact (rxRto_bounds_iff before).mpr (slow before inside)

/-- An acknowledgement of what was sent ten milliseconds before. -/
def promptAck : List Call :=
  [.update 100,
    .input (Segment.encode { conv := 0x11223344, cmd := ikcpCmdAck, wnd := 2048, ts := 90 })]

theorem not_keeps_timeout : ¬ ∀ calls : List Call, KeepsTimeout calls := by
  intro keeps
  have bounds := (keeps promptAck promptAck (List.prefix_refl _)).1
  have timeout : (runCalls createKCP promptAck).1.rxRto = 30 := by decide
  rw [timeout] at bounds
  exact absurd bounds (by decide)

end KcpTest.Endpoint
