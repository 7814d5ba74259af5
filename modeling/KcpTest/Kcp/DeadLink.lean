import KcpTest.Kcp.Answer
import KcpTest.Kcp.Api

/-!
Contract: when a control block gives its link up.

Owns: that `state` turns from `0` to `-1` exactly when a segment has been
transmitted `dead_link` times and still waits for its acknowledgement, and that
no call turns it back.
-/

set_option autoImplicit false

namespace KcpTest.Kcp

/-! ### Alive and dead -/

/-- No segment that waits has been transmitted `dead_link` times. -/
structure Alive (kcp : Kcpcb) : Prop where
  deadLink : kcp.deadLink = ikcpDeadlink
  state : kcp.state = 0
  few : ∀ seg ∈ kcp.sndBuf, seg.xmit < ikcpDeadlink

def Dead (kcp : Kcpcb) : Prop := kcp.state = 0xffffffff

/-- A segment that waits has been transmitted `dead_link` times or more. -/
def Exhausted (kcp : Kcpcb) : Prop := ∃ seg ∈ kcp.sndBuf, ikcpDeadlink ≤ seg.xmit

theorem Alive.not_exhausted {kcp : Kcpcb} (alive : Alive kcp) : ¬ Exhausted kcp := by
  rintro ⟨seg, member, spent⟩
  exact absurd (alive.few seg member) (UInt32.not_lt.mpr spent)

/-- What a call may do to a link. -/
structure Judges (kcp kcp' : Kcpcb) : Prop where
  stays : Dead kcp → Dead kcp'
  decides : Alive kcp → Alive kcp' ∨ Dead kcp' ∧ Exhausted kcp'

/-! ### Calls that transmit nothing -/

/-- What touches neither the state nor the counters of transmissions; segments may
be taken out of `snd_buf`. -/
structure SameLink (kcp kcp' : Kcpcb) : Prop where
  schedule : kcp'.schedule = kcp.schedule
  xmit : ∀ seg ∈ kcp'.sndBuf, ∃ before ∈ kcp.sndBuf, before.xmit = seg.xmit

theorem SameLink.of_eq {kcp kcp' : Kcpcb} (schedule : kcp'.schedule = kcp.schedule)
    (sndBuf : kcp'.sndBuf = kcp.sndBuf) : SameLink kcp kcp' where
  schedule := schedule
  xmit := fun seg member => ⟨seg, sndBuf ▸ member, rfl⟩

theorem SameLink.trans {first second third : Kcpcb} (before : SameLink first second)
    (after : SameLink second third) : SameLink first third where
  schedule := after.schedule.trans before.schedule
  xmit := fun seg member => by
    obtain ⟨between, inSecond, same⟩ := after.xmit seg member
    obtain ⟨source, inFirst, same'⟩ := before.xmit between inSecond
    exact ⟨source, inFirst, same'.trans same⟩

theorem SameLink.judges {kcp kcp' : Kcpcb} (same : SameLink kcp kcp') : Judges kcp kcp' where
  stays := fun dead => (congrArg Schedule.state same.schedule).trans dead
  decides := fun alive => Or.inl
    { deadLink := (congrArg Schedule.deadLink same.schedule).trans alive.deadLink
      state := (congrArg Schedule.state same.schedule).trans alive.state
      few := fun seg member => by
        obtain ⟨before, inBuf, xmit⟩ := same.xmit seg member
        exact xmit ▸ alive.few before inBuf }

theorem mem_markSkipped {sn ts : UInt32} {buf : List Segment} {seg : Segment}
    (member : seg ∈ markSkipped sn ts buf) : ∃ before ∈ buf, before.xmit = seg.xmit := by
  induction buf with
  | nil => exact absurd member List.not_mem_nil
  | cons head rest inductionHypothesis =>
      have later : seg ∈ markSkipped sn ts rest → ∃ before ∈ head :: rest, before.xmit = seg.xmit :=
        fun inRest => by
          obtain ⟨before, inBuf, xmit⟩ := inductionHypothesis inRest
          exact ⟨before, List.mem_cons_of_mem _ inBuf, xmit⟩
      simp only [markSkipped] at member
      split at member
      · exact ⟨seg, member, rfl⟩
      · split at member
        · rcases List.mem_cons.mp member with rfl | inRest
          · exact ⟨head, List.mem_cons_self, rfl⟩
          · exact later inRest
        · rcases List.mem_cons.mp member with rfl | inRest
          · exact ⟨seg, List.mem_cons_self, rfl⟩
          · exact later inRest

theorem inputSegment_sameLink (st : InputState) (h : Header) (data : Bytes) :
    SameLink st.kcp (inputSegment st h data).kcp where
  schedule := inputSegment_schedule st h data
  xmit := fun seg member =>
    ⟨seg, ((inputSegment_sndBuf st h data).1.trans (List.dropWhile_sublist _)).subset member, rfl⟩

/-- Whatever arrives, it neither kills a link nor revives it. -/
theorem ikcpInput_sameLink (kcp : Kcpcb) (data : Bytes) : SameLink kcp (ikcpInput kcp data).2 := by
  apply @ikcpInput_keeps (SameLink kcp)
  · exact fun st h data kept => kept.trans (inputSegment_sameLink st h data)
  · intro st prevUna kept
    obtain ⟨cwnd, incr, grown⟩ := growCwnd_eq
      (if st.flag then ikcpParseFastack st.kcp st.maxack st.latestTs else st.kcp) prevUna
    rw [grown]
    apply kept.trans
    split
    · rcases ikcpParseFastack_eq st.kcp st.maxack st.latestTs with same | skipped
      · rw [same]
        exact SameLink.of_eq rfl rfl
      · rw [skipped]
        exact { schedule := rfl, xmit := fun seg member => mem_markSkipped member }
    · exact SameLink.of_eq rfl rfl
  · exact SameLink.of_eq rfl rfl

theorem run_sameLink (kcp : Kcpcb) {call : Api} (passive : call.Passive) :
    SameLink kcp (call.run kcp).1 := by
  have schedule := run_schedule kcp passive
  cases call with
  | input data => exact ikcpInput_sameLink kcp data
  | update current => exact absurd passive id
  | flush => exact absurd passive id
  | send buffer len =>
      obtain ⟨sndQueue, result⟩ := ikcpSend_sndQueue kcp buffer len
      refine SameLink.of_eq schedule ?_
      rw [Api.run, result]
  | recv len => exact SameLink.of_eq schedule (ikcpRecv_sameSending kcp len).sndBuf
  | setmtu mtu => exact SameLink.of_eq schedule (ikcpSetmtu_sameSending kcp mtu).sndBuf
  | interval ms => exact SameLink.of_eq schedule rfl
  | nodelay on ms resend nc =>
      exact SameLink.of_eq schedule (ikcpNodelay_sameSending kcp on ms resend nc).sndBuf
  | wndsize sndwnd rcvwnd =>
      exact SameLink.of_eq schedule (ikcpWndsize_sameSending kcp sndwnd rcvwnd).sndBuf

/-! ### The data loop of a flush -/

/-- One round keeps the counter, or counts a transmission and looks at the limit. -/
theorem flushSegment_state (kcp : Kcpcb) (wnd : UInt32) (pass : DataPass) (segment : Segment) :
    ∃ kept : Segment, (flushSegment kcp wnd pass segment).passed = pass.passed ++ [kept] ∧
      (kept.xmit = segment.xmit ∧ (flushSegment kcp wnd pass segment).state = pass.state ∨
        (flushSegment kcp wnd pass segment).state =
          if kept.xmit ≥ kcp.deadLink then 0xffffffff else pass.state) := by
  cases decided : sendReason kcp segment with
  | none =>
      exact ⟨segment, by simp [flushSegment, decided], Or.inl (by simp [flushSegment, decided])⟩
  | some reason =>
      exact ⟨stamp kcp wnd segment reason, by simp [flushSegment, decided],
        Or.inr (by simp [flushSegment, decided])⟩

/-- The verdict so far: alive, or dead for a segment already passed. -/
def Verdict (pass : DataPass) : Prop :=
  pass.state = 0 ∧ (∀ seg ∈ pass.passed, seg.xmit < ikcpDeadlink) ∨
    pass.state = 0xffffffff ∧ ∃ seg ∈ pass.passed, ikcpDeadlink ≤ seg.xmit

section DataLoop

variable {kcp : Kcpcb} {wnd : UInt32}

theorem Verdict.flushSegment {pass : DataPass} (verdict : Verdict pass)
    (limit : kcp.deadLink = ikcpDeadlink) {segment : Segment} (few : segment.xmit < ikcpDeadlink) :
    Verdict (flushSegment kcp wnd pass segment) := by
  obtain ⟨kept, passed, judged⟩ := flushSegment_state kcp wnd pass segment
  -- a segment below the limit leaves the verdict
  have onward : kept.xmit < ikcpDeadlink →
      (Kcp.flushSegment kcp wnd pass segment).state = pass.state →
      Verdict (Kcp.flushSegment kcp wnd pass segment) := by
    intro below same
    rw [Verdict, passed, same]
    rcases verdict with ⟨alive, all⟩ | ⟨dead, seg, member, spent⟩
    · refine Or.inl ⟨alive, fun seg member => ?_⟩
      rcases List.mem_append.mp member with before | last
      · exact all seg before
      · exact List.mem_singleton.mp last ▸ below
    · exact Or.inr ⟨dead, seg, List.mem_append_left _ member, spent⟩
  rcases judged with ⟨xmit, same⟩ | judged
  · exact onward (xmit ▸ few) same
  · rw [limit] at judged
    by_cases spent : kept.xmit ≥ ikcpDeadlink
    · rw [if_pos spent] at judged
      refine Or.inr ⟨judged, kept, ?_, spent⟩
      rw [passed]
      exact List.mem_append_right _ (List.mem_singleton_self kept)
    · rw [if_neg spent] at judged
      exact onward (UInt32.not_le.mp spent) judged

theorem Verdict.foldl {buf : List Segment} {pass : DataPass} (verdict : Verdict pass)
    (limit : kcp.deadLink = ikcpDeadlink) (few : ∀ seg ∈ buf, seg.xmit < ikcpDeadlink) :
    Verdict (buf.foldl (Kcp.flushSegment kcp wnd) pass) := by
  induction buf generalizing pass with
  | nil => exact verdict
  | cons segment buf inductionHypothesis =>
      exact inductionHypothesis (verdict.flushSegment limit (few segment List.mem_cons_self))
        fun seg member => few seg (List.mem_cons_of_mem _ member)

theorem foldl_flushSegment_dead (buf : List Segment) {pass : DataPass}
    (dead : pass.state = 0xffffffff) :
    (buf.foldl (Kcp.flushSegment kcp wnd) pass).state = 0xffffffff := by
  induction buf generalizing pass with
  | nil => exact dead
  | cons segment buf inductionHypothesis =>
      apply inductionHypothesis
      obtain ⟨kept, -, ⟨-, same⟩ | judged⟩ := flushSegment_state kcp wnd pass segment
      · exact same.trans dead
      · rw [judged]
        split
        · rfl
        · exact dead

end DataLoop

/-! ### Flushes and updates -/

theorem ikcpFlush_judges (kcp : Kcpcb) : Judges kcp (ikcpFlush kcp).1 := by
  by_cases idle : kcp.updated = 0
  · rw [ikcpFlush, if_pos idle]
    exact (SameLink.of_eq rfl rfl).judges
  · obtain ⟨_, _, _, _, _, -, admitted, -⟩ := admitStage_effect kcp
    have state : (admitStage kcp).state = kcp.state := by rw [admitted]
    have deadLink : (admitStage kcp).deadLink = kcp.deadLink := by rw [admitted]
    obtain ⟨ssthresh, cwnd, incr, result⟩ := updateSsthresh_eq
      { admitStage kcp with
        sndBuf := (dataStage kcp).passed
        xmit := (dataStage kcp).xmit
        state := (dataStage kcp).state }
      (dataStage kcp).change (dataStage kcp).lost (sendWindow { probeStage kcp with probe := 0 })
    rw [ikcpFlush_stages idle, result]
    constructor
    · intro dead
      exact foldl_flushSegment_dead (admitStage kcp).sndBuf (state.trans dead)
    · intro alive
      have limit := deadLink.trans alive.deadLink
      -- what has just been admitted was never transmitted
      obtain ⟨tsProbe, probeWait, probe, probed⟩ := probeStage_eq kcp
      obtain ⟨fresh, appended, unsent⟩ := admitLoop_sndBuf (ackStage kcp).2.wnd
        (sendWindow { probeStage kcp with probe := 0 }) (probeStage kcp).sndQueue
        { probeStage kcp with probe := 0 }
      have few : ∀ seg ∈ (admitStage kcp).sndBuf, seg.xmit < ikcpDeadlink := by
        intro seg member
        rw [admitStage, appended, probed] at member
        rcases List.mem_append.mp member with before | new
        · exact alive.few seg before
        · rw [unsent seg new]
          decide
      have start : Verdict
          { staging := probeStaging kcp
            passed := []
            xmit := (admitStage kcp).xmit
            state := (admitStage kcp).state
            change := 0
            lost := false } := Or.inl ⟨state.trans alive.state, by simp⟩
      have verdict : Verdict (dataStage kcp) := start.foldl limit few
      rcases verdict with ⟨zero, below⟩ | ⟨dead, spent⟩
      · exact Or.inl ⟨limit, zero, below⟩
      · exact Or.inr ⟨dead, spent⟩

theorem ikcpUpdate_judges (kcp : Kcpcb) (current : UInt32) :
    Judges kcp (ikcpUpdate kcp current).1 := by
  obtain ⟨updated, tsFlush, -, waiting | flushing⟩ := ikcpUpdate_cases kcp current
  · rw [waiting]
    exact ⟨id, fun alive => Or.inl ⟨alive.deadLink, alive.state, alive.few⟩⟩
  · have judged := ikcpFlush_judges
      { kcp with current := current, updated := updated, tsFlush := tsFlush }
    rw [flushing]
    exact ⟨judged.stays, fun alive => judged.decides ⟨alive.deadLink, alive.state, alive.few⟩⟩

theorem run_judges (kcp : Kcpcb) (call : Api) : Judges kcp (call.run kcp).1 := by
  by_cases passive : call.Passive
  · exact (run_sameLink kcp passive).judges
  · cases call with
    | update current => exact ikcpUpdate_judges kcp current
    | flush => exact ikcpFlush_judges kcp
    | _ => exact (passive trivial).elim

/-! ### Runs -/

theorem Dead.runApi {kcp : Kcpcb} (dead : Dead kcp) (calls : List Api) :
    Dead (runApi kcp calls).1 := by
  exact @runApi_keeps Dead (fun _ => True) (fun kcp call _ => (run_judges kcp call).stays)
    kcp calls (fun _ _ => trivial) dead

/-- A run from a link that is alive keeps it so, or some part of it exhausts a
segment. -/
theorem Alive.runApi {kcp : Kcpcb} (alive : Alive kcp) (calls : List Api) :
    Alive (runApi kcp calls).1 ∧
        (∀ before, before <+: calls → ¬ Exhausted (Kcp.runApi kcp before).1) ∨
      Dead (Kcp.runApi kcp calls).1 ∧
        ∃ before, before <+: calls ∧ Exhausted (Kcp.runApi kcp before).1 := by
  induction calls generalizing kcp with
  | nil =>
      refine Or.inl ⟨alive, fun before part => ?_⟩
      rw [List.prefix_nil.mp part]
      exact alive.not_exhausted
  | cons call calls inductionHypothesis =>
      rcases (run_judges kcp call).decides alive with alive' | ⟨dead, spent⟩
      · rcases inductionHypothesis alive' with ⟨last, none'⟩ | ⟨dead, before, part, spent⟩
        · refine Or.inl ⟨last, fun before part => ?_⟩
          cases before with
          | nil => exact alive.not_exhausted
          | cons first before =>
              obtain ⟨rfl, rest⟩ := List.cons_prefix_cons.mp part
              exact none' before rest
        · exact Or.inr ⟨dead, call :: before, List.cons_prefix_cons.mpr ⟨rfl, part⟩, spent⟩
      · exact Or.inr ⟨Dead.runApi dead calls, [call],
          List.cons_prefix_cons.mpr ⟨rfl, List.nil_prefix⟩, spent⟩

theorem Alive.fresh (conv : UInt32) (stream : Int32) : Alive (fresh conv stream) where
  deadLink := rfl
  state := rfl
  few := by simp [Kcp.fresh, ikcpCreate]

/-- Whatever is called on a fresh block and whatever bytes arrive, `state` is `0` or
`-1`; and it is `-1` exactly when at some point of the run a segment waited for its
acknowledgement that had been transmitted 20 times, even if the acknowledgement
has come since: nothing revives a link. -/
theorem dead_link (conv : UInt32) (stream : Int32) (calls : List Api) :
    ((runApi (fresh conv stream) calls).1.state = 0 ∨
        (runApi (fresh conv stream) calls).1.state = 0xffffffff) ∧
      ((runApi (fresh conv stream) calls).1.state = 0xffffffff ↔
        ∃ before, before <+: calls ∧
          ∃ seg ∈ (runApi (fresh conv stream) before).1.sndBuf, 20 ≤ seg.xmit.toNat) := by
  have spent_iff : ∀ kcp : Kcpcb,
      Exhausted kcp ↔ ∃ seg ∈ kcp.sndBuf, 20 ≤ seg.xmit.toNat := by
    intro kcp
    have limit : ikcpDeadlink.toNat = 20 := rfl
    simp only [Exhausted, UInt32.le_iff_toNat_le, limit]
  simp only [← spent_iff]
  rcases (Alive.fresh conv stream).runApi calls with ⟨alive, none'⟩ | ⟨dead, spent⟩
  · refine ⟨Or.inl alive.state, ?_⟩
    constructor
    · intro dead
      rw [alive.state] at dead
      exact absurd dead (by decide)
    · rintro ⟨before, part, spent⟩
      exact absurd spent (none' before part)
  · exact ⟨Or.inr dead, iff_of_true dead spent⟩

/-- A message nobody acknowledges, and updates at clocks twice as far each time. -/
def unanswered (updates : Nat) : List Api :=
  .send [104] 1 :: (List.range updates).map fun k => .update (UInt32.ofNat (400 * 2 ^ k))

example : (runApi (fresh 1 0) (unanswered 20)).1.state = 0 ∧
    (runApi (fresh 1 0) (unanswered 21)).1.state = 0xffffffff := by decide +kernel

end KcpTest.Kcp
