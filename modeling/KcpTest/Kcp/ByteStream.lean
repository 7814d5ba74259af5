import KcpTest.Kcp.Settings

/-!
Contract: the bytes between `ikcp_send` and the send window, in message mode and
in streaming mode.

Owns: what `ikcp_send` takes of its buffer in either mode, the segments a run
admits to `snd_buf`, that each call appends those it takes out of `snd_queue`, and
that they and the send queue are the accepted bytes in order, whatever is called
and whatever arrives.
-/

set_option autoImplicit false

namespace KcpTest.Kcp

/-! ### One `ikcp_send` -/

/-- The bytes of a queue, in order. -/
def spelled (queue : List Segment) : Bytes := queue.flatMap Segment.data

@[simp] theorem spelled_append (front back : List Segment) :
    spelled (front ++ back) = spelled front ++ spelled back := by
  simp [spelled]

theorem fragmentSize_bounds (mss : Nat) {len : Int} (nonneg : 0 ≤ len) :
    (fragmentSize mss len : Int) ≤ len := by
  unfold fragmentSize
  split <;> omega

/-- The fragment loop cuts the front of the buffer, as long as it says. -/
theorem spelled_fragmentLoop (mss : Nat) (stream : Int32) (count : Nat) (buffer : Bytes)
    (len : Int) :
    spelled (fragmentLoop mss stream count buffer len) =
      buffer.take (fragmentSent mss count len) := by
  induction count generalizing buffer len with
  | zero => simp [fragmentLoop, fragmentSent, spelled]
  | succ count inductionHypothesis =>
      have rest := inductionHypothesis (buffer.drop (fragmentSize mss len))
        (len - fragmentSize mss len)
      rw [fragmentLoop, fragmentSent, List.take_add, ← rest]
      rfl

/-- Enough rounds take everything. -/
theorem fragmentSent_all (mss count : Nat) (len : Int) (nonneg : 0 ≤ len)
    (enough : len ≤ count * mss) : (fragmentSent mss count len : Int) = len := by
  induction count generalizing len with
  | zero =>
      have none' : len = 0 := by
        rw [Int.natCast_zero, Int.zero_mul] at enough
        omega
      rw [none']
      rfl
  | succ count inductionHypothesis =>
      have size_le := fragmentSize_bounds mss nonneg
      have rest_le : len - fragmentSize mss len ≤ count * mss := by
        unfold fragmentSize
        split
        · push_cast at enough ⊢
          linarith
        · have : (0 : Int) ≤ count * mss := by positivity
          omega
      have rest := inductionHypothesis (len - fragmentSize mss len) (by omega) rest_le
      rw [fragmentSent]
      push_cast
      omega

/-- The tail takes the front of the buffer. When it takes nothing although there
is something to take, nothing changes. -/
theorem extendTail_spelled (kcp : Kcpcb) (buffer : Bytes) (len : Int) (nonneg : 0 ≤ len) :
    spelled (extendTail kcp buffer len).1 =
        spelled kcp.sndQueue ++ buffer.take (extendTail kcp buffer len).2 ∧
      ((extendTail kcp buffer len).2 : Int) ≤ len ∧
      (0 < len → (extendTail kcp buffer len).2 = 0 →
        (extendTail kcp buffer len).1 = kcp.sndQueue) := by
  unfold extendTail
  split
  · simp [nonneg]
  · rename_i old last
    split
    · rename_i room
      have split : kcp.sndQueue = kcp.sndQueue.dropLast ++ [old] :=
        (List.dropLast_append_getLast? old last).symm
      refine ⟨?_, ?_, ?_⟩
      · conv_rhs => rw [split]
        simp [spelled]
      · simp only
        split <;> omega
      · intro some' none'
        simp only at none'
        split at none' <;> omega
    · simp [nonneg]

/-- The first half of `ikcp_send`, which only streaming mode has. -/
theorem extended_spelled (kcp : Kcpcb) (buffer : Bytes) {len : Int} (nonneg : 0 ≤ len) :
    ∃ queue sent,
      (if kcp.stream ≠ 0 then extendTail kcp buffer len else (kcp.sndQueue, 0)) = (queue, sent) ∧
      spelled queue = spelled kcp.sndQueue ++ buffer.take sent ∧ (sent : Int) ≤ len ∧
      (kcp.stream = 0 → sent = 0 ∧ queue = kcp.sndQueue) ∧
      (0 < len → sent = 0 → queue = kcp.sndQueue) := by
  split
  · rename_i streaming
    obtain ⟨bytes, sent_le, same⟩ := extendTail_spelled kcp buffer len nonneg
    exact ⟨_, _, rfl, bytes, sent_le, fun message => absurd message streaming, same⟩
  · exact ⟨_, _, rfl, by simp, by omega, fun _ => ⟨rfl, rfl⟩, fun _ _ => rfl⟩

/-- `ikcp_send` refuses and changes nothing, or appends the first `taken` bytes to
the bytes of the queue and returns their number. In message mode it takes all of
them. -/
theorem ikcpSend_takes (kcp : Kcpcb) (buffer : Bytes) (len : Int32) (pos : 0 < kcp.mss.toNat)
    (small : kcp.mss.toNat < 2 ^ 31) :
    ((ikcpSend kcp buffer len).1 < 0 ∧ (ikcpSend kcp buffer len).2 = kcp) ∨
      ∃ (taken : Nat) (queue : List Segment), (ikcpSend kcp buffer len).1 = taken ∧
        (ikcpSend kcp buffer len).2 = { kcp with sndQueue := queue } ∧
        spelled queue = spelled kcp.sndQueue ++ buffer.take taken ∧ (taken : Int) ≤ len.toInt ∧
        (kcp.stream = 0 → (taken : Int) = len.toInt) := by
  simp only [ikcpSend]
  by_cases negative : len.toInt < 0
  · rw [if_pos negative]
    exact Or.inl ⟨(by decide : (-1 : Int) < 0), rfl⟩
  · rw [if_neg negative]
    obtain ⟨queue, sent, result, bytes, sent_le, message, same⟩ :=
      extended_spelled kcp buffer (by omega : 0 ≤ len.toInt)
    simp only [result]
    have below := Int32.toInt_lt len
    -- what is left is a length again
    have cast : (Int32.ofInt (len.toInt - sent)).toInt = len.toInt - sent :=
      Int32.toInt_ofInt_of_le (by omega) (by omega)
    have covers := fragmentCount_spec kcp.mss (Int32.ofInt (len.toInt - sent)) pos small
      (by omega)
    rw [cast] at covers
    obtain ⟨one_le, covers⟩ := covers
    split
    · rename_i done
      exact Or.inr ⟨sent, queue, rfl, rfl, bytes, sent_le, fun none' => absurd none' done.1⟩
    · rename_i more
      split
      · split
        · rename_i some'
          exact Or.inr ⟨sent, queue, rfl, rfl, bytes, sent_le, fun none' => absurd none' some'.1⟩
        · rename_i nothing
          have unchanged : queue = kcp.sndQueue := by
            by_cases streaming : kcp.stream = 0
            · exact (message streaming).2
            · have none' : sent = 0 := by
                by_contra some'
                exact nothing ⟨streaming, Nat.pos_of_ne_zero some'⟩
              have left : 0 < len.toInt - sent := by
                by_contra none''
                exact more ⟨streaming, by omega⟩
              exact same (by omega) none'
          rw [unchanged]
          exact Or.inl ⟨(by decide : (-2 : Int) < 0), rfl⟩
      · have nonzero : fragmentCount kcp.mss (len.toInt - sent) ≠ 0 := by omega
        rw [if_neg nonzero]
        have all := fragmentSent_all kcp.mss.toNat
          (fragmentCount kcp.mss (len.toInt - sent)).toNat (len.toInt - sent) (by omega)
          (by rw [Int.toNat_of_nonneg (by omega)]; exact covers)
        refine Or.inr ⟨sent + fragmentSent kcp.mss.toNat
          (fragmentCount kcp.mss (len.toInt - sent)).toNat (len.toInt - sent), _, ?_, rfl, ?_,
          ?_, ?_⟩
        · push_cast
          rfl
        · rw [spelled_append, bytes, spelled_fragmentLoop, List.append_assoc, ← List.take_add]
        · push_cast
          omega
        · intro _
          push_cast
          omega

/-! ### Runs -/

/-- The bytes a call takes over. -/
def Api.accepted (kcp : Kcpcb) : Api → Bytes
  | .send buffer len => buffer.take (ikcpSend kcp buffer len).1.toNat
  | _ => []

/-- The segments a call moves from `snd_queue` to `snd_buf`. -/
def Api.admitted (kcp : Kcpcb) : Api → List Segment
  | .update current =>
      kcp.sndQueue.take (kcp.sndQueue.length - (ikcpUpdate kcp current).1.sndQueue.length)
  | .flush => kcp.sndQueue.take (kcp.sndQueue.length - (ikcpFlush kcp).1.sndQueue.length)
  | _ => []

def acceptedBytes (kcp : Kcpcb) : List Api → Bytes
  | [] => []
  | call :: calls => call.accepted kcp ++ acceptedBytes (call.run kcp).1 calls

def admittedSegments (kcp : Kcpcb) : List Api → List Segment
  | [] => []
  | call :: calls => call.admitted kcp ++ admittedSegments (call.run kcp).1 calls

/-- What a flush moves is what is missing at the front of `snd_queue`. -/
theorem FlushEffect.moved_eq {kcp kcp' : Kcpcb} {moved : List Segment}
    (effect : FlushEffect kcp kcp' moved) :
    kcp.sndQueue.take (kcp.sndQueue.length - kcp'.sndQueue.length) = moved := by
  rw [effect.queue, List.length_append, Nat.add_sub_cancel, List.take_left]

/-- From `kcp` to `kcp'`, `snd_buf` may lose segments, and at its end it gets
`moved`, numbered from `snd_nxt` on, and nothing else. -/
def Appends (kcp kcp' : Kcpcb) (moved : List Segment) : Prop :=
  ∃ kept, (∀ core ∈ kept, core ∈ kcp.sndBuf.map Segment.core) ∧
    kcp'.sndBuf.map Segment.core = kept ++ numbered kcp.conv kcp.sndNxt moved

theorem Appends.none {kcp kcp' : Kcpcb}
    (kept : ∀ core ∈ kcp'.sndBuf.map Segment.core, core ∈ kcp.sndBuf.map Segment.core) :
    Appends kcp kcp' [] :=
  ⟨kcp'.sndBuf.map Segment.core, kept, (List.append_nil _).symm⟩

theorem Appends.flush {kcp kcp' : Kcpcb} {moved : List Segment}
    (effect : FlushEffect kcp kcp' moved) :
    Appends kcp kcp' (kcp.sndQueue.take (kcp.sndQueue.length - kcp'.sndQueue.length)) :=
  ⟨kcp.sndBuf.map Segment.core, fun _ member => member, by rw [effect.moved_eq, effect.sndBuf]⟩

/-- The segments a call admits are the ones it appends to `snd_buf`. -/
theorem Api.appends (kcp : Kcpcb) (call : Api) :
    Appends kcp (call.run kcp).1 (call.admitted kcp) := by
  have same : ∀ kcp', SameSending kcp kcp' → Appends kcp kcp' [] := by
    intro kcp' same
    apply Appends.none
    rw [same.sndBuf]
    exact fun _ member => member
  cases call with
  | send buffer len =>
      obtain ⟨sndQueue, result⟩ := ikcpSend_sndQueue kcp buffer len
      apply Appends.none
      rw [Api.run, result]
      exact fun _ member => member
  | recv len => exact same _ (ikcpRecv_sameSending kcp len)
  | input data => exact Appends.none (ikcpInput_keepsOutbound kcp data).kept
  | update current =>
      obtain ⟨moved, effect, -⟩ := ikcpUpdate_effect kcp current
      exact Appends.flush effect
  | flush =>
      obtain ⟨moved, effect, -⟩ := ikcpFlush_effect kcp
      exact Appends.flush effect
  | setmtu mtu => exact same _ (ikcpSetmtu_sameSending kcp mtu)
  | interval ms => exact same _ ⟨rfl, rfl, rfl, rfl⟩
  | nodelay on ms resend nc => exact same _ (ikcpNodelay_sameSending kcp on ms resend nc)
  | wndsize sndwnd rcvwnd => exact same _ (ikcpWndsize_sameSending kcp sndwnd rcvwnd)

/-- The admitted segments and the send queue are the accepted bytes, `snd_nxt`
counts the admitted segments, and `snd_buf` holds some of them, each under its
number. -/
structure InOrder (conv : UInt32) (bytes : Bytes) (admitted : List Segment) (kcp : Kcpcb) :
    Prop where
  inRange : InRange kcp
  conv : kcp.conv = conv
  bytes : spelled admitted ++ spelled kcp.sndQueue = bytes
  sndNxt : kcp.sndNxt = UInt32.ofNat admitted.length
  sndBuf : ∀ seg ∈ kcp.sndBuf, seg.core ∈ numbered kcp.conv 0 admitted

theorem numbered_append (conv nxt : UInt32) (front back : List Segment) :
    numbered conv nxt (front ++ back) =
      numbered conv nxt front ++ numbered conv (nxt + UInt32.ofNat front.length) back := by
  induction front generalizing nxt with
  | nil => simp [numbered]
  | cons seg front inductionHypothesis =>
      have count : nxt + 1 + UInt32.ofNat front.length =
          nxt + UInt32.ofNat (front.length + 1) := by
        rw [UInt32.ofNat_add, UInt32.add_assoc, UInt32.add_comm 1]
        rfl
      simp [numbered, inductionHypothesis, count]

/-- What a call takes over, what it admits and what it appends make one more step. -/
theorem InOrder.step {conv : UInt32} {bytes more : Bytes} {admitted moved : List Segment}
    {kcp kcp' : Kcpcb} (inOrder : InOrder conv bytes admitted kcp) (inRange : InRange kcp')
    (sameConv : kcp'.conv = kcp.conv)
    (takes : spelled moved ++ spelled kcp'.sndQueue = spelled kcp.sndQueue ++ more)
    (sndNxt : kcp'.sndNxt = kcp.sndNxt + UInt32.ofNat moved.length)
    (appends : Appends kcp kcp' moved) :
    InOrder conv (bytes ++ more) (admitted ++ moved) kcp' where
  inRange := inRange
  conv := sameConv.trans inOrder.conv
  bytes := by rw [spelled_append, List.append_assoc, takes, ← List.append_assoc, inOrder.bytes]
  sndNxt := by rw [sndNxt, inOrder.sndNxt, List.length_append, UInt32.ofNat_add]
  sndBuf := by
    intro seg member
    obtain ⟨kept, old, cores⟩ := appends
    have core : seg.core ∈ kept ++ numbered kcp.conv kcp.sndNxt moved :=
      cores ▸ List.mem_map_of_mem member
    rw [sameConv, numbered_append, UInt32.zero_add, ← inOrder.sndNxt]
    rcases List.mem_append.mp core with inKept | new
    · obtain ⟨source, inBuf, same⟩ := List.mem_map.mp (old _ inKept)
      have held := inOrder.sndBuf source inBuf
      rw [same] at held
      exact List.mem_append_left _ held
    · exact List.mem_append_right _ new

section Steps

variable {conv : UInt32} {bytes : Bytes} {admitted : List Segment} {kcp kcp' : Kcpcb}
  (inOrder : InOrder conv bytes admitted kcp) (inRange : InRange kcp')
include inOrder inRange

/-- A call that takes nothing over and admits nothing. -/
theorem InOrder.quiet (sameConv : kcp'.conv = kcp.conv) (sndQueue : kcp'.sndQueue = kcp.sndQueue)
    (sndNxt : kcp'.sndNxt = kcp.sndNxt) (appends : Appends kcp kcp' []) :
    InOrder conv (bytes ++ []) (admitted ++ []) kcp' := by
  refine inOrder.step inRange sameConv ?_ ?_ appends
  · rw [sndQueue, List.append_nil]
    rfl
  · rw [sndNxt]
    exact (UInt32.add_zero _).symm

theorem InOrder.same (same : SameSending kcp kcp') (appends : Appends kcp kcp' []) :
    InOrder conv (bytes ++ []) (admitted ++ []) kcp' :=
  inOrder.quiet inRange same.conv same.sndQueue same.sndNxt appends

theorem InOrder.flush {moved : List Segment} (effect : FlushEffect kcp kcp' moved)
    (appends : Appends kcp kcp'
      (kcp.sndQueue.take (kcp.sndQueue.length - kcp'.sndQueue.length))) :
    InOrder conv (bytes ++ [])
      (admitted ++ kcp.sndQueue.take (kcp.sndQueue.length - kcp'.sndQueue.length)) kcp' := by
  rw [effect.moved_eq] at appends ⊢
  refine inOrder.step inRange (congrArg Config.conv effect.config) ?_ effect.sndNxt appends
  rw [effect.queue, spelled_append, List.append_nil]

end Steps

theorem InOrder.send {conv : UInt32} {bytes : Bytes} {admitted : List Segment} {kcp : Kcpcb}
    (inOrder : InOrder conv bytes admitted kcp) (buffer : Bytes) (len : Int32)
    (appends : Appends kcp (ikcpSend kcp buffer len).2 []) :
    InOrder conv (bytes ++ buffer.take (ikcpSend kcp buffer len).1.toNat) (admitted ++ [])
      (ikcpSend kcp buffer len).2 := by
  have mss : kcp.mss.toNat = kcp.mtu.toNat - 24 := inOrder.inRange.config.mss
  have wide : 50 ≤ kcp.mtu.toNat ∧ kcp.mtu.toNat < 2 ^ 31 := inOrder.inRange.config.mtu
  have nothing : kcp.sndNxt = kcp.sndNxt + UInt32.ofNat ([] : List Segment).length :=
    (UInt32.add_zero _).symm
  rcases ikcpSend_takes kcp buffer len (by omega) (by omega) with
    ⟨refused, same⟩ | ⟨taken, queue, ret, result, spells, -, -⟩
  · have none' : (ikcpSend kcp buffer len).1.toNat = 0 := by omega
    rw [same] at appends ⊢
    rw [none', List.take_zero]
    exact inOrder.quiet inOrder.inRange rfl rfl rfl appends
  · rw [result] at appends ⊢
    rw [ret, Int.toNat_natCast]
    exact inOrder.step (inOrder.inRange.congr rfl rfl rfl rfl) rfl spells nothing appends

theorem InOrder.run {conv : UInt32} {bytes : Bytes} {admitted : List Segment} {kcp : Kcpcb}
    (inOrder : InOrder conv bytes admitted kcp) (call : Api) :
    InOrder conv (bytes ++ call.accepted kcp) (admitted ++ call.admitted kcp)
      (call.run kcp).1 := by
  have inRange := inOrder.inRange.run kcp call
  have appends := call.appends kcp
  cases call with
  | send buffer len => exact inOrder.send buffer len appends
  | update current =>
      obtain ⟨moved, effect, -⟩ := ikcpUpdate_effect kcp current
      exact inOrder.flush inRange effect appends
  | flush =>
      obtain ⟨moved, effect, -⟩ := ikcpFlush_effect kcp
      exact inOrder.flush inRange effect appends
  | input data =>
      have keeps := ikcpInput_keepsOutbound kcp data
      exact inOrder.quiet inRange (congrArg Config.conv keeps.config) keeps.sndQueue keeps.sndNxt
        appends
  | recv len => exact inOrder.same inRange (ikcpRecv_sameSending kcp len) appends
  | setmtu mtu => exact inOrder.same inRange (ikcpSetmtu_sameSending kcp mtu) appends
  | interval ms => exact inOrder.quiet inRange rfl rfl rfl appends
  | nodelay on ms resend nc =>
      exact inOrder.same inRange (ikcpNodelay_sameSending kcp on ms resend nc) appends
  | wndsize sndwnd rcvwnd =>
      exact inOrder.same inRange (ikcpWndsize_sameSending kcp sndwnd rcvwnd) appends

theorem InOrder.runApi {conv : UInt32} {bytes : Bytes} {admitted : List Segment} {kcp : Kcpcb}
    (inOrder : InOrder conv bytes admitted kcp) (calls : List Api) :
    InOrder conv (bytes ++ acceptedBytes kcp calls) (admitted ++ admittedSegments kcp calls)
      (runApi kcp calls).1 := by
  induction calls generalizing kcp bytes admitted with
  | nil =>
      simp only [acceptedBytes, admittedSegments, List.append_nil]
      exact inOrder
  | cons call calls inductionHypothesis =>
      have rest := inductionHypothesis (inOrder.run call)
      rw [List.append_assoc, List.append_assoc] at rest
      exact rest

theorem InOrder.fresh (conv : UInt32) (stream : Int32) :
    InOrder conv [] [] (fresh conv stream) where
  inRange := InRange.fresh conv stream
  conv := rfl
  bytes := rfl
  sndNxt := rfl
  sndBuf := by simp [Kcp.fresh, ikcpCreate]

/-- In message mode and in streaming mode, whatever is called on a fresh block and
whatever bytes arrive: the segments that ever entered `snd_buf`, then those of
`snd_queue`, are the bytes `ikcp_send` took over, none lost, repeated or moved;
`snd_nxt` counts the former, every segment held for retransmission is one of them
under its number, and the segments any further call admits are those it appends to
`snd_buf`. -/
theorem bytes_in_order (conv : UInt32) (stream : Int32) (calls : List Api) :
    let kcp := (runApi (fresh conv stream) calls).1
    let admitted := admittedSegments (fresh conv stream) calls
    spelled admitted ++ spelled kcp.sndQueue = acceptedBytes (fresh conv stream) calls ∧
      kcp.sndNxt = UInt32.ofNat admitted.length ∧
      (∀ seg ∈ kcp.sndBuf, seg.core ∈ numbered conv 0 admitted) ∧
      ∀ next : Api, Appends kcp (next.run kcp).1 (next.admitted kcp) := by
  have inOrder := (InOrder.fresh conv stream).runApi calls
  rw [List.nil_append, List.nil_append] at inOrder
  obtain ⟨-, sameConv, bytes, sndNxt, sndBuf⟩ := inOrder
  rw [sameConv] at sndBuf
  exact ⟨bytes, sndNxt, sndBuf, Api.appends _⟩

end KcpTest.Kcp
