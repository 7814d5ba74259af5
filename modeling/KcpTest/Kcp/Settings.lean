import KcpTest.Kcp.Api

/-!
Contract: the settings and the timers of a control block over its whole life.

Owns: the ranges that `ikcp_create` starts in and every call of `ikcp.h` keeps,
whatever its arguments are and whatever bytes arrive.
-/

set_option autoImplicit false

namespace KcpTest.Kcp

open KcpTest.Library

/-! ### Ranges -/

/-- The ranges of the fields that a call sets. -/
structure ConfigInRange (config : Config) : Prop where
  interval : 10 ≤ config.interval.toNat ∧ config.interval.toNat ≤ 5000
  mtu : 50 ≤ config.mtu.toNat ∧ config.mtu.toNat < 2 ^ 31
  mss : config.mss.toNat = config.mtu.toNat - 24
  sndWnd : 1 ≤ config.sndWnd.toNat ∧ config.sndWnd.toNat < 2 ^ 31
  rcvWnd : 128 ≤ config.rcvWnd.toNat ∧ config.rcvWnd.toNat < 2 ^ 31
  rxMinrto : config.rxMinrto = 30 ∨ config.rxMinrto = 100

/-- The ranges of the fields that the protocol sets. -/
structure TimersInRange (kcp : Kcpcb) : Prop where
  rxRto : 30 ≤ kcp.rxRto.toInt ∧ kcp.rxRto.toInt ≤ 60000
  ssthresh : 2 ≤ kcp.ssthresh.toNat
  probeWait : kcp.probeWait = 0 ∨ 7000 ≤ kcp.probeWait.toNat ∧ kcp.probeWait.toNat ≤ 120000

structure InRange (kcp : Kcpcb) : Prop where
  config : ConfigInRange kcp.config
  timers : TimersInRange kcp

theorem TimersInRange.congr {kcp kcp' : Kcpcb} (timers : TimersInRange kcp)
    (rxRto : kcp'.rxRto = kcp.rxRto) (ssthresh : kcp'.ssthresh = kcp.ssthresh)
    (probeWait : kcp'.probeWait = kcp.probeWait) : TimersInRange kcp' where
  rxRto := rxRto ▸ timers.rxRto
  ssthresh := ssthresh ▸ timers.ssthresh
  probeWait := probeWait ▸ timers.probeWait

theorem InRange.congr {kcp kcp' : Kcpcb} (inRange : InRange kcp)
    (config : kcp'.config = kcp.config) (rxRto : kcp'.rxRto = kcp.rxRto)
    (ssthresh : kcp'.ssthresh = kcp.ssthresh) (probeWait : kcp'.probeWait = kcp.probeWait) :
    InRange kcp' where
  config := config ▸ inRange.config
  timers := inRange.timers.congr rxRto ssthresh probeWait

/-! ### The retransmission timeout -/

theorem ibound_toNat (lower middle upper : UInt32) :
    (ibound lower middle upper).toNat = min (max lower.toNat middle.toNat) upper.toNat := by
  have least : ∀ a b : UInt32, (imin a b).toNat = min a.toNat b.toNat := by
    intro a b
    unfold imin
    split
    · rename_i le
      have := UInt32.le_iff_toNat_le.mp le
      omega
    · rename_i greater
      have := UInt32.le_iff_toNat_le.not.mp greater
      omega
  rw [ibound, least, imax_toNat]

/-- A value below `2 ^ 31` keeps it as a signed number. -/
theorem toInt_toInt32_of_lt {value : UInt32} (small : value.toNat < 2 ^ 31) :
    value.toInt32.toInt = value.toNat := by
  change value.toBitVec.toInt = _
  rw [BitVec.toInt_eq_toNat_of_lt]
  · rfl
  · change 2 * value.toNat < 2 ^ 32
    omega

theorem ikcpUpdateAck_rxRto {kcp : Kcpcb} (minrto : kcp.rxMinrto = 30 ∨ kcp.rxMinrto = 100)
    (rtt : Int32) : 30 ≤ (ikcpUpdateAck kcp rtt).rxRto.toInt ∧
      (ikcpUpdateAck kcp rtt).rxRto.toInt ≤ 60000 := by
  have clamp : ∃ middle, (ikcpUpdateAck kcp rtt).rxRto =
      (ibound kcp.rxMinrto.toUInt32 middle ikcpRtoMax).toInt32 := by
    unfold ikcpUpdateAck
    split <;> exact ⟨_, rfl⟩
  obtain ⟨middle, rxRto⟩ := clamp
  have bounded := ibound_toNat kcp.rxMinrto.toUInt32 middle ikcpRtoMax
  have upper : ikcpRtoMax.toNat = 60000 := rfl
  have lower : 30 ≤ kcp.rxMinrto.toUInt32.toNat ∧ kcp.rxMinrto.toUInt32.toNat ≤ 100 := by
    rcases minrto with same | same <;> rw [same] <;> decide
  rw [rxRto, toInt_toInt32_of_lt (by omega)]
  omega

/-! ### One segment -/

theorem InRange.inputAck (st : InputState) (h : Header) (inRange : InRange st.kcp) :
    InRange (inputAck st h).kcp := by
  rw [inputAck_kcp]
  have estimated : InRange
      (if itimediff st.kcp.current h.ts ≥ 0 then
        ikcpUpdateAck st.kcp (Int32.ofInt (itimediff st.kcp.current h.ts))
      else st.kcp) := by
    split
    · have rxRto := ikcpUpdateAck_rxRto inRange.config.rxMinrto
        (Int32.ofInt (itimediff st.kcp.current h.ts))
      obtain ⟨_, _, _, result⟩ :=
        ikcpUpdateAck_eq st.kcp (Int32.ofInt (itimediff st.kcp.current h.ts))
      rw [result] at rxRto ⊢
      exact
        { config := inRange.config
          timers := { inRange.timers with rxRto := rxRto } }
    · exact inRange
  generalize (if itimediff st.kcp.current h.ts ≥ 0 then _ else _ : Kcpcb) = kcp at estimated ⊢
  obtain ⟨sndUna, shrunk⟩ := ikcpShrinkBuf_eq (ikcpParseAck kcp h.sn)
  rw [shrunk]
  rcases ikcpParseAck_eq kcp h.sn with same | removed
  · rw [same]
    exact estimated.congr rfl rfl rfl rfl
  · rw [removed]
    exact estimated.congr rfl rfl rfl rfl

theorem InRange.inputSegment {st : InputState} (inRange : InRange st.kcp) (h : Header)
    (data : Bytes) : InRange (inputSegment st h data).kcp := by
  obtain ⟨sndUna, shrunk⟩ := ikcpShrinkBuf_eq
    (ikcpParseUna { st.kcp with rmtWnd := h.wnd.toUInt32 } h.una)
  have released : InRange
      { ikcpParseUna { st.kcp with rmtWnd := h.wnd.toUInt32 } h.una with sndUna := sndUna } :=
    inRange.congr rfl rfl rfl rfl
  simp only [Kcp.inputSegment, shrunk]
  split
  · exact InRange.inputAck { st with kcp := _ } h released
  · split
    · obtain ⟨_, _, _, _, pushed⟩ := inputPush_eq
        { ikcpParseUna { st.kcp with rmtWnd := h.wnd.toUInt32 } h.una with sndUna := sndUna } h data
      rw [pushed]
      exact released.congr rfl rfl rfl rfl
    · split
      · exact released.congr rfl rfl rfl rfl
      · exact released

theorem InRange.inputEnd {st : InputState} (inRange : InRange st.kcp) (prevUna : UInt32) :
    InRange
      (growCwnd (if st.flag then ikcpParseFastack st.kcp st.maxack st.latestTs else st.kcp)
        prevUna) := by
  have marked : InRange
      (if st.flag then ikcpParseFastack st.kcp st.maxack st.latestTs else st.kcp) := by
    split
    · rcases ikcpParseFastack_eq st.kcp st.maxack st.latestTs with same | skipped
      · rw [same]
        exact inRange
      · rw [skipped]
        exact inRange.congr rfl rfl rfl rfl
    · exact inRange
  generalize (if st.flag then _ else _ : Kcpcb) = kcp at marked ⊢
  obtain ⟨cwnd, incr, grown⟩ := growCwnd_eq kcp prevUna
  rw [grown]
  exact marked.congr rfl rfl rfl rfl

/-! ### A flush -/

/-- The probe timer starts at seven seconds, grows by half, and stops at two
minutes. -/
theorem probeTimer_probeWait {kcp : Kcpcb}
    (before : kcp.probeWait = 0 ∨ 7000 ≤ kcp.probeWait.toNat ∧ kcp.probeWait.toNat ≤ 120000) :
    (probeTimer kcp).probeWait = 0 ∨
      7000 ≤ (probeTimer kcp).probeWait.toNat ∧ (probeTimer kcp).probeWait.toNat ≤ 120000 := by
  have first : ikcpProbeInit.toNat = 7000 := rfl
  have last : ikcpProbeLimit.toNat = 120000 := rfl
  unfold probeTimer
  split
  · split
    · right
      show 7000 ≤ ikcpProbeInit.toNat ∧ ikcpProbeInit.toNat ≤ 120000
      omega
    · rename_i armed
      obtain ⟨low, high⟩ := before.resolve_left armed
      split
      · right
        have notShort : ¬ kcp.probeWait < ikcpProbeInit := by
          rw [UInt32.lt_iff_toNat_lt]
          omega
        have grown : (kcp.probeWait + kcp.probeWait / 2).toNat =
            kcp.probeWait.toNat + kcp.probeWait.toNat / 2 := by
          have two : (2 : UInt32).toNat = 2 := rfl
          rw [UInt32.toNat_add, UInt32.toNat_div, two]
          omega
        simp only [if_neg notShort]
        split
        · decide
        · rename_i within
          have := UInt32.lt_iff_toNat_lt.not.mp within
          omega
      · exact Or.inr ⟨low, high⟩
  · exact Or.inl rfl

theorem updateSsthresh_ssthresh (kcp : Kcpcb) (change : Nat) (lost : Bool) (cwnd : UInt32)
    (before : 2 ≤ kcp.ssthresh.toNat) :
    2 ≤ (updateSsthresh kcp change lost cwnd).ssthresh.toNat := by
  have least : ∀ value : UInt32,
      2 ≤ (if value < ikcpThreshMin then ikcpThreshMin else value).toNat := by
    intro value
    have min' : ikcpThreshMin.toNat = 2 := rfl
    split
    · exact min'.ge
    · rename_i enough
      have := UInt32.lt_iff_toNat_lt.not.mp enough
      omega
  have onChange : 2 ≤ (shrinkOnChange kcp change).ssthresh.toNat := by
    unfold shrinkOnChange
    split
    · exact least _
    · exact before
  have onLoss : 2 ≤ (shrinkOnLoss (shrinkOnChange kcp change) lost cwnd).ssthresh.toNat := by
    unfold shrinkOnLoss
    split
    · exact least _
    · exact onChange
  simp only [updateSsthresh]
  split <;> exact onLoss

theorem InRange.flush {kcp : Kcpcb} (inRange : InRange kcp) : InRange (ikcpFlush kcp).1 := by
  by_cases idle : kcp.updated = 0
  · rw [ikcpFlush, if_pos idle]
    exact inRange
  · have probeWait : (admitStage kcp).probeWait = (probeStage kcp).probeWait := by
      obtain ⟨_, _, _, _, admitted, _⟩ := admitLoop_effect (ackStage kcp).2.wnd
        (sendWindow { probeStage kcp with probe := 0 }) (probeStage kcp).sndQueue
        { probeStage kcp with probe := 0 }
      rw [admitStage, admitted]
    obtain ⟨moved, rest, buf, tsProbe, wait, -, admitted, -⟩ := admitStage_effect kcp
    have ssthresh := updateSsthresh_ssthresh
      { admitStage kcp with
        sndBuf := (dataStage kcp).passed
        xmit := (dataStage kcp).xmit
        state := (dataStage kcp).state }
      (dataStage kcp).change (dataStage kcp).lost (sendWindow { probeStage kcp with probe := 0 })
      (by
        rw [admitted]
        exact inRange.timers.ssthresh)
    obtain ⟨ssthresh', cwnd, incr, result⟩ := updateSsthresh_eq
      { admitStage kcp with
        sndBuf := (dataStage kcp).passed
        xmit := (dataStage kcp).xmit
        state := (dataStage kcp).state }
      (dataStage kcp).change (dataStage kcp).lost (sendWindow { probeStage kcp with probe := 0 })
    rw [result] at ssthresh
    rw [ikcpFlush_stages idle, result]
    refine { config := ?_, timers := { rxRto := ?_, ssthresh := ssthresh, probeWait := ?_ } }
    · rw [admitted]
      exact inRange.config
    · rw [admitted]
      exact inRange.timers.rxRto
    · show (admitStage kcp).probeWait = 0 ∨ _
      rw [probeWait]
      exact probeTimer_probeWait inRange.timers.probeWait

theorem InRange.update {kcp : Kcpcb} (inRange : InRange kcp) (current : UInt32) :
    InRange (ikcpUpdate kcp current).1 := by
  obtain ⟨updated, tsFlush, -, waiting | flushing⟩ := ikcpUpdate_cases kcp current
  · rw [waiting]
    exact inRange.congr rfl rfl rfl rfl
  · rw [flushing]
    exact InRange.flush (inRange.congr rfl rfl rfl rfl)

/-! ### The configuring calls -/

theorem clamped_interval (ms : Int32) :
    10 ≤ (if ms > 5000 then 5000 else if ms < 10 then 10 else ms : Int32).toUInt32.toNat ∧
      (if ms > 5000 then 5000 else if ms < 10 then 10 else ms : Int32).toUInt32.toNat ≤ 5000 := by
  split
  · decide
  · split
    · decide
    · rename_i high low
      rw [gt_iff_lt, Int32.lt_iff_toInt_lt, not_lt] at high
      rw [Int32.lt_iff_toInt_lt, not_lt] at low
      have ten : (10 : Int32).toInt = 10 := rfl
      have top : (5000 : Int32).toInt = 5000 := rfl
      have pos : 0 < ms := by
        rw [Int32.lt_iff_toInt_lt]
        have zero : (0 : Int32).toInt = 0 := rfl
        omega
      have value := (toNat_toUInt32 pos).1
      omega

/-- `ikcp_setmtu` refuses the unit, or sets it as it is. -/
theorem ikcpSetmtu_cases (kcp : Kcpcb) (mtu : Int32) :
    (ikcpSetmtu kcp mtu).2 = kcp ∨
      50 ≤ mtu.toUInt32.toNat ∧ mtu.toUInt32.toNat = mtu.toInt.toNat ∧
        (ikcpSetmtu kcp mtu).2 =
          { kcp with mtu := mtu.toUInt32, mss := mtu.toUInt32 - ikcpOverhead } := by
  unfold ikcpSetmtu
  split
  · exact Or.inl rfl
  · rename_i large
    obtain ⟨low, -⟩ := not_or.mp large
    rw [Int32.lt_iff_toInt_lt, not_lt] at low
    have fifty : (50 : Int32).toInt = 50 := rfl
    have pos : 0 < mtu := by
      rw [Int32.lt_iff_toInt_lt]
      have zero : (0 : Int32).toInt = 0 := rfl
      omega
    have value := (toNat_toUInt32 pos).1
    exact Or.inr ⟨by omega, value, rfl⟩

theorem ConfigInRange.setmtu {kcp : Kcpcb} (config : ConfigInRange kcp.config) (mtu : Int32) :
    ConfigInRange (ikcpSetmtu kcp mtu).2.config := by
  rcases ikcpSetmtu_cases kcp mtu with refused | ⟨fifty, value, set⟩
  · rw [refused]
    exact config
  · have below := Int32.toInt_lt mtu
    rw [set]
    refine { config with mtu := ?_, mss := ?_ }
    · show 50 ≤ mtu.toUInt32.toNat ∧ mtu.toUInt32.toNat < 2 ^ 31
      omega
    · show (mtu.toUInt32 - ikcpOverhead).toNat = mtu.toUInt32.toNat - 24
      rw [UInt32.toNat_sub_of_le]
      · rfl
      · rw [UInt32.le_iff_toNat_le]
        show 24 ≤ _
        omega

theorem ConfigInRange.wndsize {kcp : Kcpcb} (config : ConfigInRange kcp.config)
    (sndwnd rcvwnd : Int32) : ConfigInRange (ikcpWndsize kcp sndwnd rcvwnd).config := by
  have sized : ConfigInRange
      (if sndwnd > 0 then { kcp with sndWnd := sndwnd.toUInt32 } else kcp).config := by
    split
    · rename_i pos
      have stored := toNat_toUInt32 pos
      have below := Int32.toInt_lt sndwnd
      refine { config with sndWnd := ?_ }
      show 1 ≤ sndwnd.toUInt32.toNat ∧ sndwnd.toUInt32.toNat < 2 ^ 31
      omega
    · exact config
  unfold ikcpWndsize
  generalize (if sndwnd > 0 then _ else _ : Kcpcb) = kcp at sized ⊢
  simp only
  split
  · rename_i pos
    have stored := toNat_toUInt32 pos
    have below := Int32.toInt_lt rcvwnd
    have least : ikcpWndRcv.toNat = 128 := rfl
    refine { sized with rcvWnd := ?_ }
    show 128 ≤ (imax rcvwnd.toUInt32 ikcpWndRcv).toNat ∧
      (imax rcvwnd.toUInt32 ikcpWndRcv).toNat < 2 ^ 31
    rw [imax_toNat]
    omega
  · exact sized

/-! ### Every call -/

theorem InRange.run (kcp : Kcpcb) (call : Api) (inRange : InRange kcp) :
    InRange (call.run kcp).1 := by
  cases call with
  | send buffer len =>
      obtain ⟨sndQueue, result⟩ := ikcpSend_sndQueue kcp buffer len
      rw [Api.run, result]
      exact inRange.congr rfl rfl rfl rfl
  | recv len =>
      rcases ikcpRecv_cases kcp len with ⟨-, same, -⟩ | ⟨-, -, -, -, probe, result⟩
      · rw [Api.run, same]
        exact inRange
      · rw [Api.run, result]
        split <;> exact inRange.congr rfl rfl rfl rfl
  | input data =>
      exact ikcpInput_keeps (fun _ h data kept => InRange.inputSegment kept h data)
        (fun _ prevUna kept => InRange.inputEnd kept prevUna) kcp data inRange
  | update current => exact inRange.update current
  | flush => exact inRange.flush
  | setmtu mtu =>
      refine ⟨inRange.config.setmtu mtu, ?_⟩
      rw [Api.run, ikcpSetmtu]
      split <;> exact inRange.timers.congr rfl rfl rfl
  | interval ms =>
      exact ⟨{ inRange.config with interval := clamped_interval ms },
        inRange.timers.congr rfl rfl rfl⟩
  | nodelay on ms resend nc =>
      obtain ⟨_, rxMinrto, interval, _, _, result, minrto, period⟩ :=
        ikcpNodelay_eq kcp on ms resend nc
      rw [Api.run, result]
      refine ⟨{ inRange.config with interval := ?_, rxMinrto := ?_ },
        inRange.timers.congr rfl rfl rfl⟩
      · rcases period with same | set
        · rw [same]
          exact inRange.config.interval
        · rw [set]
          exact clamped_interval ms
      · rcases minrto with same | low | high
        · rw [same]
          exact inRange.config.rxMinrto
        · exact Or.inl low
        · exact Or.inr high
  | wndsize sndwnd rcvwnd =>
      refine ⟨inRange.config.wndsize sndwnd rcvwnd, ?_⟩
      unfold Api.run ikcpWndsize
      by_cases sized : sndwnd > 0 <;> by_cases sized' : rcvwnd > 0 <;>
        simp only [sized, sized', if_true, if_false] <;> exact inRange.timers.congr rfl rfl rfl

theorem InRange.fresh (conv : UInt32) (stream : Int32) : InRange (fresh conv stream) where
  config :=
    { interval := (by decide : 10 ≤ ikcpInterval.toNat ∧ ikcpInterval.toNat ≤ 5000)
      mtu := (by decide : 50 ≤ ikcpMtuDef.toNat ∧ ikcpMtuDef.toNat < 2 ^ 31)
      mss := (by decide : (ikcpMtuDef - ikcpOverhead).toNat = ikcpMtuDef.toNat - 24)
      sndWnd := (by decide : 1 ≤ ikcpWndSnd.toNat ∧ ikcpWndSnd.toNat < 2 ^ 31)
      rcvWnd := (by decide : 128 ≤ ikcpWndRcv.toNat ∧ ikcpWndRcv.toNat < 2 ^ 31)
      rxMinrto := Or.inr rfl }
  timers :=
    { rxRto := (by decide :
        30 ≤ ikcpRtoDef.toInt32.toInt ∧ ikcpRtoDef.toInt32.toInt ≤ 60000)
      ssthresh := (by decide : 2 ≤ ikcpThreshInit.toNat)
      probeWait := Or.inl rfl }

/-- Whatever is called on a fresh block, with whatever arguments and bytes: the
interval, the window sizes and the sizes of datagrams and segments stay in the
ranges `ikcp.h` names, no segment size is zero, the retransmission timeout stays
between 30 ms and one minute, the slow-start threshold at 2 or more, and the
probe timer is off or between seven seconds and two minutes. -/
theorem settings_in_range (conv : UInt32) (stream : Int32) (calls : List Api) :
    InRange (runApi (fresh conv stream) calls).1 := by
  exact @runApi_keeps InRange (fun _ => True) (fun kcp call _ => InRange.run kcp call)
    (fresh conv stream) calls (fun _ _ => trivial) (InRange.fresh conv stream)

end KcpTest.Kcp
