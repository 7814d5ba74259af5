import KcpTest.Kcp.Message
import KcpTest.Kcp.ReceiveWindow

/-!
Contract: a control block under any sequence of the calls of `ikcp.h`.

Owns: the calls, their runs from `ikcp_create`, which fields a call leaves alone,
and that the two windows stay bounded over every run.
-/

set_option autoImplicit false

namespace KcpTest.Kcp

open KcpTest.Library KcpTest.Library.Serial

/-! ### Calls -/

/-- The calls that change a control block, with their arguments. -/
inductive Api where
  | send (buffer : Bytes) (len : Int32)
  | recv (len : Int32)
  | input (data : Bytes)
  | update (current : UInt32)
  | flush
  | setmtu (mtu : Int32)
  | interval (interval : Int32)
  | nodelay (nodelay interval resend nc : Int32)
  | wndsize (sndwnd rcvwnd : Int32)

/-- The control block after a call, and the datagrams it handed over. -/
def Api.run (kcp : Kcpcb) : Api → Kcpcb × List Datagram
  | .send buffer len => ((ikcpSend kcp buffer len).2, [])
  | .recv len => ((ikcpRecv kcp len).kcp, [])
  | .input data => ((ikcpInput kcp data).2, [])
  | .update current => ikcpUpdate kcp current
  | .flush => ikcpFlush kcp
  | .setmtu mtu => ((ikcpSetmtu kcp mtu).2, [])
  | .interval ms => (kcp.ikcpInterval ms, [])
  | .nodelay on ms resend nc => (ikcpNodelay kcp on ms resend nc, [])
  | .wndsize sndwnd rcvwnd => (ikcpWndsize kcp sndwnd rcvwnd, [])

def runApi (kcp : Kcpcb) : List Api → Kcpcb × List Datagram
  | [] => (kcp, [])
  | call :: calls =>
      let (kcp, first) := call.run kcp
      let (kcp, rest) := runApi kcp calls
      (kcp, first ++ rest)

/-- A fresh block; the mode is a field its owner sets. -/
def fresh (conv : UInt32) (stream : Int32) : Kcpcb := { ikcpCreate conv with stream := stream }

/-- What one call keeps, a run keeps. -/
theorem runApi_keeps {P : Kcpcb → Prop} {Allowed : Api → Prop}
    (step : ∀ kcp call, Allowed call → P kcp → P (call.run kcp).1) (kcp : Kcpcb)
    (calls : List Api) (allowed : ∀ call ∈ calls, Allowed call) (holds : P kcp) :
    P (runApi kcp calls).1 := by
  induction calls generalizing kcp with
  | nil => exact holds
  | cons call calls inductionHypothesis =>
      apply inductionHypothesis
      · exact fun other member => allowed other (List.mem_cons_of_mem _ member)
      · exact step kcp call (allowed call List.mem_cons_self) holds

/-! ### What the configuring calls touch -/

/-- `ikcp_send` changes nothing but the send queue. -/
theorem ikcpSend_sndQueue (kcp : Kcpcb) (buffer : Bytes) (len : Int32) :
    ∃ sndQueue, (ikcpSend kcp buffer len).2 = { kcp with sndQueue := sndQueue } := by
  simp only [ikcpSend]
  generalize (if kcp.stream ≠ 0 then _ else _ : List Segment × Nat) = extended
  split
  · exact ⟨kcp.sndQueue, rfl⟩
  · split
    · exact ⟨extended.1, rfl⟩
    · split
      · split <;> exact ⟨extended.1, rfl⟩
      · exact ⟨_, rfl⟩

theorem ikcpNodelay_eq (kcp : Kcpcb) (nodelay interval resend nc : Int32) :
    ∃ nodelay' rxMinrto interval' fastresend nocwnd,
      ikcpNodelay kcp nodelay interval resend nc =
        { kcp with
          nodelay := nodelay'
          rxMinrto := rxMinrto
          interval := interval'
          fastresend := fastresend
          nocwnd := nocwnd } ∧
      (rxMinrto = kcp.rxMinrto ∨ rxMinrto = 30 ∨ rxMinrto = 100) ∧
      (interval' = kcp.interval ∨ interval' = (kcp.ikcpInterval interval).interval) := by
  unfold ikcpNodelay
  refine ⟨if nodelay ≥ 0 then nodelay.toUInt32 else kcp.nodelay,
    if nodelay ≥ 0 then (if nodelay ≠ 0 then 30 else 100) else kcp.rxMinrto,
    if interval ≥ 0 then (kcp.ikcpInterval interval).interval else kcp.interval,
    if resend ≥ 0 then resend else kcp.fastresend,
    if nc ≥ 0 then nc else kcp.nocwnd, ?_, ?_, ?_⟩
  · by_cases a : nodelay ≥ 0 <;> by_cases b : interval ≥ 0 <;> by_cases c : resend ≥ 0 <;>
      by_cases d : nc ≥ 0 <;> simp only [a, b, c, d, if_true, if_false] <;> rfl
  · split
    · split
      · exact Or.inr (Or.inl rfl)
      · exact Or.inr (Or.inr rfl)
    · exact Or.inl rfl
  · split
    · exact Or.inr rfl
    · exact Or.inl rfl

/-- The same sending half. -/
structure SameSending (kcp kcp' : Kcpcb) : Prop where
  conv : kcp'.conv = kcp.conv
  sndNxt : kcp'.sndNxt = kcp.sndNxt
  sndQueue : kcp'.sndQueue = kcp.sndQueue
  sndBuf : kcp'.sndBuf = kcp.sndBuf

theorem SameSending.refl (kcp : Kcpcb) : SameSending kcp kcp := ⟨rfl, rfl, rfl, rfl⟩

theorem ikcpRecv_sameSending (kcp : Kcpcb) (len : Int32) :
    SameSending kcp (ikcpRecv kcp len).kcp := by
  rcases ikcpRecv_cases kcp len with ⟨-, same, -⟩ | ⟨-, -, -, -, probe, result⟩
  · rw [same]
    exact SameSending.refl kcp
  · rw [result]
    split <;> exact ⟨rfl, rfl, rfl, rfl⟩

theorem ikcpSetmtu_sameSending (kcp : Kcpcb) (mtu : Int32) :
    SameSending kcp (ikcpSetmtu kcp mtu).2 := by
  unfold ikcpSetmtu
  split <;> exact ⟨rfl, rfl, rfl, rfl⟩

theorem ikcpNodelay_sameSending (kcp : Kcpcb) (nodelay interval resend nc : Int32) :
    SameSending kcp (ikcpNodelay kcp nodelay interval resend nc) := by
  obtain ⟨_, _, _, _, _, result, -⟩ := ikcpNodelay_eq kcp nodelay interval resend nc
  rw [result]
  exact ⟨rfl, rfl, rfl, rfl⟩

theorem ikcpWndsize_sameSending (kcp : Kcpcb) (sndwnd rcvwnd : Int32) :
    SameSending kcp (ikcpWndsize kcp sndwnd rcvwnd) := by
  have sized : SameSending kcp
      (if sndwnd > 0 then { kcp with sndWnd := sndwnd.toUInt32 } else kcp) := by
    split <;> exact ⟨rfl, rfl, rfl, rfl⟩
  unfold ikcpWndsize
  generalize (if sndwnd > 0 then _ else _ : Kcpcb) = sizedKcp at sized ⊢
  simp only
  split
  · exact ⟨sized.conv, sized.sndNxt, sized.sndQueue, sized.sndBuf⟩
  · exact sized

theorem imax_toNat (a b : UInt32) : (imax a b).toNat = max a.toNat b.toNat := by
  unfold imax
  split
  · rename_i ge
    have := UInt32.le_iff_toNat_le.mp ge
    omega
  · rename_i less
    have := UInt32.le_iff_toNat_le.not.mp less
    omega

/-- A positive window size as the block stores it. -/
theorem toNat_toUInt32 {size : Int32} (pos : 0 < size) :
    size.toUInt32.toNat = size.toInt.toNat ∧ 0 < size.toInt := by
  have positive : 0 < size.toInt := by
    rw [Int32.lt_iff_toInt_lt] at pos
    exact pos
  refine ⟨?_, positive⟩
  have value : size.toInt = size.toBitVec.toInt := rfl
  rw [value, BitVec.toInt_eq_toNat_cond] at positive ⊢
  split at positive
  · rename_i small
    rw [if_pos small]
    rfl
  · have := size.toBitVec.isLt
    omega

/-! ### What only an update touches -/

/-- Anything but an update or a flush. -/
def Api.Passive : Api → Prop
  | .update _ => False
  | .flush => False
  | _ => True

/-- The fields that only an update or a flush sets, and the limit they go by. -/
structure Schedule where
  updated : UInt32
  tsFlush : UInt32
  state : UInt32
  deadLink : UInt32

def Kcpcb.schedule (kcp : Kcpcb) : Schedule where
  updated := kcp.updated
  tsFlush := kcp.tsFlush
  state := kcp.state
  deadLink := kcp.deadLink

theorem inputSegment_schedule (st : InputState) (h : Header) (data : Bytes) :
    (inputSegment st h data).kcp.schedule = st.kcp.schedule := by
  obtain ⟨sndUna, shrunk⟩ := ikcpShrinkBuf_eq
    (ikcpParseUna { st.kcp with rmtWnd := h.wnd.toUInt32 } h.una)
  simp only [inputSegment, shrunk]
  split
  · obtain ⟨_, _, _, _, _, result, -⟩ := inputAck_eq
      { st with kcp :=
        { ikcpParseUna { st.kcp with rmtWnd := h.wnd.toUInt32 } h.una with sndUna := sndUna } } h
    rw [result]
    rfl
  · split
    · obtain ⟨_, _, _, _, pushed⟩ := inputPush_eq
        { ikcpParseUna { st.kcp with rmtWnd := h.wnd.toUInt32 } h.una with sndUna := sndUna } h data
      simp only [pushed]
      rfl
    · split <;> rfl

/-- Whatever the bytes are, `ikcp_input` leaves them alone. -/
theorem ikcpInput_schedule (kcp : Kcpcb) (data : Bytes) :
    (ikcpInput kcp data).2.schedule = kcp.schedule := by
  apply @ikcpInput_keeps fun kcp' => kcp'.schedule = kcp.schedule
  · exact fun st h data kept => (inputSegment_schedule st h data).trans kept
  · intro st prevUna kept
    obtain ⟨cwnd, incr, grown⟩ := growCwnd_eq
      (if st.flag then ikcpParseFastack st.kcp st.maxack st.latestTs else st.kcp) prevUna
    rw [grown]
    show (if st.flag then ikcpParseFastack st.kcp st.maxack st.latestTs else st.kcp).schedule = _
    split
    · rcases ikcpParseFastack_eq st.kcp st.maxack st.latestTs with same | skipped
      · rw [same]
        exact kept
      · rw [skipped]
        exact kept
    · exact kept
  · rfl

theorem run_schedule (kcp : Kcpcb) {call : Api} (passive : call.Passive) :
    (call.run kcp).1.schedule = kcp.schedule := by
  cases call with
  | send buffer len =>
      obtain ⟨sndQueue, result⟩ := ikcpSend_sndQueue kcp buffer len
      rw [Api.run, result]
      rfl
  | recv len =>
      rcases ikcpRecv_cases kcp len with ⟨-, same, -⟩ | ⟨-, -, -, -, probe, result⟩
      · rw [Api.run, same]
      · rw [Api.run, result]
        split <;> rfl
  | input data => exact ikcpInput_schedule kcp data
  | update current => exact absurd passive id
  | flush => exact absurd passive id
  | setmtu mtu =>
      rw [Api.run, ikcpSetmtu]
      split <;> rfl
  | interval ms => rfl
  | nodelay on ms resend nc =>
      obtain ⟨_, _, _, _, _, result, -⟩ := ikcpNodelay_eq kcp on ms resend nc
      rw [Api.run, result]
      rfl
  | wndsize sndwnd rcvwnd =>
      rw [Api.run, ikcpWndsize]
      split <;> split <;> rfl

theorem runApi_schedule (kcp : Kcpcb) {calls : List Api} (passive : ∀ call ∈ calls, call.Passive) :
    (runApi kcp calls).1.schedule = kcp.schedule := by
  exact @runApi_keeps (fun kcp' => kcp'.schedule = kcp.schedule) Api.Passive
    (fun kcp' _ allowed kept => (run_schedule kcp' allowed).trans kept) kcp calls passive rfl

/-! ### Windows -/

/-- A window size is at most `limit`. -/
def Api.Within (limit : Nat) : Api → Prop
  | .wndsize sndwnd rcvwnd => sndwnd.toInt ≤ limit ∧ rcvwnd.toInt ≤ limit
  | _ => True

/-- Both windows of a control block. -/
structure Windowed (limit : Nat) (kcp : Kcpcb) : Prop where
  sending : SendWindow limit kcp
  receiving : ReceiveWindow limit kcp

theorem Windowed.wndsize {limit : Nat} {kcp : Kcpcb} (default : 128 ≤ limit)
    (windowed : Windowed limit kcp) {sndwnd rcvwnd : Int32} (sndLe : sndwnd.toInt ≤ limit)
    (rcvLe : rcvwnd.toInt ≤ limit) : Windowed limit (ikcpWndsize kcp sndwnd rcvwnd) := by
  have sized : Windowed limit
      (if sndwnd > 0 then { kcp with sndWnd := sndwnd.toUInt32 } else kcp) := by
    split
    · rename_i pos
      have stored := (toNat_toUInt32 pos).1
      exact
        { sending := { windowed.sending with
            sndWnd := by
              show sndwnd.toUInt32.toNat ≤ limit
              omega }
          receiving := windowed.receiving.congr rfl rfl }
    · exact windowed
  unfold ikcpWndsize
  generalize (if sndwnd > 0 then _ else _ : Kcpcb) = kcp at sized ⊢
  simp only
  split
  · rename_i pos
    have stored := (toNat_toUInt32 pos).1
    have least : ikcpWndRcv.toNat = 128 := rfl
    exact
      { sending := sized.sending.congr rfl rfl rfl rfl
        receiving := { sized.receiving with
          rcvWnd := by
            show (imax rcvwnd.toUInt32 ikcpWndRcv).toNat ≤ limit
            rw [imax_toNat]
            omega } }
  · exact sized

theorem Windowed.run {limit : Nat} (small : limit < 2 ^ 31) (default : 128 ≤ limit) (kcp : Kcpcb)
    (call : Api) (within : call.Within limit) (windowed : Windowed limit kcp) :
    Windowed limit (call.run kcp).1 := by
  obtain ⟨sending, receiving⟩ := windowed
  cases call with
  | send buffer len =>
      obtain ⟨sndQueue, result⟩ := ikcpSend_sndQueue kcp buffer len
      rw [Api.run, result]
      exact ⟨sending.congr rfl rfl rfl rfl, receiving.congr rfl rfl⟩
  | recv len =>
      refine ⟨?_, receiving.recv len⟩
      rcases ikcpRecv_cases kcp len with ⟨-, same, -⟩ | ⟨-, -, -, -, probe, result⟩
      · rw [Api.run, same]
        exact sending
      · rw [Api.run, result]
        split <;> exact sending.congr rfl rfl rfl rfl
  | input data => exact ⟨sending.input data, receiving.input small data⟩
  | update current =>
      obtain ⟨moved, effect, -⟩ := ikcpUpdate_effect kcp current
      exact ⟨sending.update small current, receiving.flush effect⟩
  | flush =>
      obtain ⟨moved, effect, -⟩ := ikcpFlush_effect kcp
      exact ⟨sending.flush small, receiving.flush effect⟩
  | setmtu mtu =>
      rw [Api.run, ikcpSetmtu]
      split
      · exact ⟨sending, receiving⟩
      · exact ⟨sending.congr rfl rfl rfl rfl, receiving.congr rfl rfl⟩
  | interval ms => exact ⟨sending.congr rfl rfl rfl rfl, receiving.congr rfl rfl⟩
  | nodelay on ms resend nc =>
      obtain ⟨_, _, _, _, _, result, -⟩ := ikcpNodelay_eq kcp on ms resend nc
      rw [Api.run, result]
      exact ⟨sending.congr rfl rfl rfl rfl, receiving.congr rfl rfl⟩
  | wndsize sndwnd rcvwnd =>
      exact Windowed.wndsize default ⟨sending, receiving⟩ within.1 within.2

theorem Windowed.fresh {limit : Nat} (default : 128 ≤ limit) (conv : UInt32) (stream : Int32) :
    Windowed limit (fresh conv stream) where
  sending :=
    { sndWnd := Nat.le_trans (by decide : ikcpWndSnd.toNat ≤ 128) default
      sndUna := rfl
      flight_le := (offset_self _).trans_le (Nat.zero_le limit)
      inFlight := InWindow.nil _ _ }
  receiving :=
    { rcvWnd := default
      early := InWindow.nil _ _
      queue_le := Nat.zero_le limit }

/-- Whatever is called on a fresh block and whatever bytes arrive: as long as no
window is set wider than `limit`, none of `snd_buf`, `rcv_buf` and `rcv_queue`
grows past it, `snd_una` is the oldest number in `snd_buf`, and the numbers in
both buffers go up from `snd_una` and from `rcv_nxt` without a repetition,
wherever the counters wrap around. -/
theorem windows_bounded (conv : UInt32) (stream : Int32) (limit : Nat) (small : limit < 2 ^ 31)
    (default : 128 ≤ limit) (calls : List Api) (within : ∀ call ∈ calls, call.Within limit) :
    let kcp := (runApi (fresh conv stream) calls).1
    kcp.sndBuf.length ≤ limit ∧ kcp.rcvBuf.length ≤ limit ∧ kcp.rcvQueue.length ≤ limit ∧
      kcp.sndUna = oldest kcp.sndNxt kcp.sndBuf ∧ kcp.flight ≤ limit ∧
      InWindow kcp.sndUna.toBitVec kcp.flight (numbers kcp.sndBuf) ∧
      InWindow kcp.rcvNxt.toBitVec limit (numbers kcp.rcvBuf) := by
  have windowed := runApi_keeps (Windowed.run small default) (fresh conv stream) calls within
    (Windowed.fresh default conv stream)
  obtain ⟨sending, receiving⟩ := windowed
  exact ⟨sending.length_le, receiving.length_le, receiving.queue_le, sending.sndUna,
    sending.flight_le, sending.inFlight, receiving.early⟩

/-- The settings of the test program, and a message of one byte. -/
def wideCalls : List Api := [.wndsize 2048 2048, .nodelay 1 10 2 1, .send [104] 1, .update 0]

theorem windows_bounded_wide :
    (runApi (fresh 7 0) wideCalls).1.sndBuf.length = 1 ∧
      (runApi (fresh 7 0) wideCalls).1.sndBuf.length ≤ 2048 := by
  have within : ∀ call ∈ wideCalls, call.Within 2048 := by
    simp [wideCalls, Api.Within]
  exact ⟨by decide, (windows_bounded 7 0 2048 (by decide) (by decide) wideCalls within).1⟩

end KcpTest.Kcp
