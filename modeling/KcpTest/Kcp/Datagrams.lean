import KcpTest.Kcp.ByteStream
import KcpTest.Kcp.Flushed

/-!
Contract: the datagrams of a control block under any sequence of calls.

Owns: the condition under which a change of the maximum transmission unit gets
the buffer it needs and leaves room for the segments already cut, that every
datagram is then a non-empty run of whole segments within the unit that a peer
accepts, what each of its segments carries, and that no flush writes past the
buffer it packs into.
-/

set_option autoImplicit false

namespace KcpTest.Kcp

open KcpTest.Library

/-! ### Room for every segment -/

/-- A segment that fits a datagram of `mtu` bytes, with a number one byte holds. -/
structure Segment.FitsIn (mtu : Nat) (seg : Segment) : Prop where
  len : 24 + seg.len ≤ mtu
  frg : seg.frg.toNat < 128

/-- A new unit is narrow enough that the size of its buffer does not wrap around,
and wide enough for the segments cut for the old one. Without the first condition
the buffer may be smaller than the unit, and without the second a segment of
`snd_queue` or `snd_buf` may exceed the buffer that `ikcp_setmtu` has just
replaced. -/
def Api.KeepsRoom (kcp : Kcpcb) : Api → Prop
  | .setmtu mtu =>
      mtu.toInt < 2 ^ 30 ∧
        ∀ seg ∈ kcp.sndQueue ++ kcp.sndBuf, 24 + seg.len ≤ (ikcpSetmtu kcp mtu).2.mtu.toNat
  | _ => True

instance (kcp : Kcpcb) (call : Api) : Decidable (call.KeepsRoom kcp) := by
  cases call <;> unfold Api.KeepsRoom <;> infer_instance

def EachKeepsRoom (kcp : Kcpcb) : List Api → Prop
  | [] => True
  | call :: calls => call.KeepsRoom kcp ∧ EachKeepsRoom (call.run kcp).1 calls

/-- Every held segment fits, in a unit whose buffer has the size meant. -/
structure Roomy (kcp : Kcpcb) : Prop where
  inRange : InRange kcp
  narrow : kcp.mtu.toNat < 2 ^ 30
  queue : ∀ seg ∈ kcp.sndQueue, seg.FitsIn kcp.mtu.toNat
  buf : ∀ seg ∈ kcp.sndBuf, seg.FitsIn kcp.mtu.toNat

theorem Roomy.short {kcp : Kcpcb} (roomy : Roomy kcp) : kcp.Short where
  room := by
    have wide : 50 ≤ kcp.mtu.toNat ∧ kcp.mtu.toNat < 2 ^ 31 := roomy.inRange.config.mtu
    omega
  queue := fun seg member => (roomy.queue seg member).len
  buf := fun seg member => (roomy.buf seg member).len

theorem Segment.FitsIn.core {mtu : Nat} {seg other : Segment} (fits : seg.FitsIn mtu)
    (same : seg.core = other.core) : other.FitsIn mtu := by
  have data : seg.data = other.data := (congrArg Segment.data same :)
  have frg : seg.frg = other.frg := (congrArg Segment.frg same :)
  constructor
  · rw [Segment.len, ← data]
    exact fits.len
  · rw [← frg]
    exact fits.frg

/-! ### Cutting -/

theorem fragmentLoop_frg_lt (mss : Nat) (stream : Int32) {count : Nat} (few : count ≤ 128)
    (buffer : Bytes) (len : Int) :
    ∀ seg ∈ fragmentLoop mss stream count buffer len, seg.frg.toNat < 128 := by
  induction count generalizing buffer len with
  | zero => simp [fragmentLoop]
  | succ count inductionHypothesis =>
      intro seg member
      rcases List.mem_cons.mp member with rfl | later
      · show (if stream = 0 then UInt32.ofNat count else 0).toNat < 128
        split
        · rw [UInt32.toNat_ofNat']
          omega
        · exact (by decide : (0 : UInt32).toNat < 128)
      · exact inductionHypothesis (by omega) _ _ seg later

theorem extendTail_segments (kcp : Kcpcb) (buffer : Bytes) (len : Int) :
    ∀ seg ∈ (extendTail kcp buffer len).1,
      seg ∈ kcp.sndQueue ∨ seg.len ≤ kcp.mss.toNat ∧ seg.frg.toNat < 128 := by
  intro seg member
  unfold extendTail at member
  split at member
  · exact Or.inl member
  · rename_i old last
    split at member
    · rename_i room
      rcases List.mem_append.mp member with kept | grown
      · exact Or.inl ((List.dropLast_sublist _).subset kept)
      · right
        rw [List.mem_singleton.mp grown]
        refine ⟨?_, (by decide : (0 : UInt32).toNat < 128)⟩
        have extend_le : (if len < ((kcp.mss.toNat - old.len : Nat) : Int) then len.toNat
            else kcp.mss.toNat - old.len) ≤ kcp.mss.toNat - old.len := by
          split <;> omega
        generalize (if len < _ then len.toNat else _) = extend at extend_le ⊢
        unfold Segment.len at room extend_le ⊢
        rw [List.length_append, List.length_take]
        omega
    · exact Or.inl member

/-- No segment `ikcp_send` makes is above the maximum segment size. -/
theorem ikcpSend_segments (kcp : Kcpcb) (buffer : Bytes) (len : Int32) :
    ∀ seg ∈ (ikcpSend kcp buffer len).2.sndQueue,
      seg ∈ kcp.sndQueue ∨ seg.len ≤ kcp.mss.toNat ∧ seg.frg.toNat < 128 := by
  have extended : ∀ seg ∈
      (if kcp.stream ≠ 0 then extendTail kcp buffer len.toInt else (kcp.sndQueue, 0)).1,
      seg ∈ kcp.sndQueue ∨ seg.len ≤ kcp.mss.toNat ∧ seg.frg.toNat < 128 := by
    split
    · exact extendTail_segments kcp buffer len.toInt
    · exact fun seg member => Or.inl member
  have limit : ikcpWndRcv.toNat = 128 := rfl
  intro seg member
  simp only [ikcpSend] at member
  generalize (if kcp.stream ≠ 0 then _ else _ : List Segment × Nat) = tail at extended member
  split at member
  · exact Or.inl member
  · split at member
    · exact extended seg member
    · split at member
      · split at member <;> exact extended seg member
      · rename_i few
        rcases List.mem_append.mp member with old | new
        · exact extended seg old
        · refine Or.inr ⟨fragmentLoop_len_le _ _ _ _ _ seg new,
            fragmentLoop_frg_lt _ _ ?_ _ _ seg new⟩
          split <;> omega

/-! ### The calls -/

section Steps

variable {kcp kcp' : Kcpcb} (roomy : Roomy kcp)
include roomy

theorem Roomy.same (inRange : InRange kcp') (same : SameSending kcp kcp')
    (mtu : kcp'.mtu = kcp.mtu) : Roomy kcp' where
  inRange := inRange
  narrow := mtu ▸ roomy.narrow
  queue := by
    rw [same.sndQueue, mtu]
    exact roomy.queue
  buf := by
    rw [same.sndBuf, mtu]
    exact roomy.buf

theorem Roomy.send (buffer : Bytes) (len : Int32) : Roomy (ikcpSend kcp buffer len).2 := by
  obtain ⟨sndQueue, result⟩ := ikcpSend_sndQueue kcp buffer len
  have segments := ikcpSend_segments kcp buffer len
  have mss : kcp.mss.toNat = kcp.mtu.toNat - 24 := roomy.inRange.config.mss
  have room := roomy.short.room
  rw [result] at segments ⊢
  refine
    { inRange := roomy.inRange.congr rfl rfl rfl rfl
      narrow := roomy.narrow
      queue := ?_
      buf := roomy.buf }
  intro seg member
  rcases segments seg member with old | ⟨len, frg⟩
  · exact roomy.queue seg old
  · refine ⟨?_, frg⟩
    show 24 + seg.len ≤ kcp.mtu.toNat
    omega

theorem Roomy.input (data : Bytes) : Roomy (ikcpInput kcp data).2 := by
  have keeps := ikcpInput_keepsOutbound kcp data
  have mtu : (ikcpInput kcp data).2.mtu = kcp.mtu := congrArg Config.mtu keeps.config
  refine
    { inRange := roomy.inRange.run kcp (.input data)
      narrow := mtu ▸ roomy.narrow
      queue := ?_
      buf := ?_ }
  · rw [keeps.sndQueue, mtu]
    exact roomy.queue
  · intro seg member
    obtain ⟨kept, inBuf, same⟩ :=
      List.mem_map.mp (keeps.kept seg.core (List.mem_map_of_mem member))
    rw [mtu]
    exact (roomy.buf kept inBuf).core same

theorem Roomy.flush (inRange : InRange kcp') {moved : List Segment}
    (effect : FlushEffect kcp kcp' moved) : Roomy kcp' := by
  have mtu : kcp'.mtu = kcp.mtu := congrArg Config.mtu effect.config
  refine { inRange := inRange, narrow := mtu ▸ roomy.narrow, queue := ?_, buf := ?_ }
  · intro seg member
    rw [mtu]
    refine roomy.queue seg ?_
    rw [effect.queue]
    exact List.mem_append_right _ member
  · intro seg member
    have core : seg.core ∈ kcp.sndBuf.map Segment.core ++ numbered kcp.conv kcp.sndNxt moved :=
      effect.sndBuf ▸ List.mem_map_of_mem member
    rw [mtu]
    rcases List.mem_append.mp core with old | new
    · obtain ⟨kept, inBuf, same⟩ := List.mem_map.mp old
      exact (roomy.buf kept inBuf).core same
    · obtain ⟨source, inMoved, -, -, sameFrg, sameData⟩ := mem_numbered new
      have fits := roomy.queue source (by
        rw [effect.queue]
        exact List.mem_append_left _ inMoved)
      constructor
      · have sameLen : seg.len = source.len := congrArg List.length sameData
        rw [sameLen]
        exact fits.len
      · have same : seg.frg = source.frg := sameFrg
        rw [same]
        exact fits.frg

theorem Roomy.setmtu (mtu : Int32) (room : Api.KeepsRoom kcp (.setmtu mtu)) :
    Roomy (ikcpSetmtu kcp mtu).2 := by
  have same := ikcpSetmtu_sameSending kcp mtu
  obtain ⟨narrow, room⟩ := room
  refine
    { inRange := roomy.inRange.run kcp (.setmtu mtu)
      narrow := ?_
      queue := ?_
      buf := ?_ }
  · rcases ikcpSetmtu_cases kcp mtu with refused | ⟨-, value, set⟩
    · rw [refused]
      exact roomy.narrow
    · rw [set]
      show mtu.toUInt32.toNat < 2 ^ 30
      omega
  · intro seg member
    rw [same.sndQueue] at member
    exact ⟨room seg (List.mem_append_left _ member), (roomy.queue seg member).frg⟩
  · intro seg member
    rw [same.sndBuf] at member
    exact ⟨room seg (List.mem_append_right _ member), (roomy.buf seg member).frg⟩

theorem Roomy.run (call : Api) (room : call.KeepsRoom kcp) : Roomy (call.run kcp).1 := by
  have inRange := roomy.inRange.run kcp call
  cases call with
  | send buffer len => exact roomy.send buffer len
  | recv len =>
      refine roomy.same inRange (ikcpRecv_sameSending kcp len) ?_
      rcases ikcpRecv_cases kcp len with ⟨-, same, -⟩ | ⟨-, -, -, -, probe, result⟩
      · rw [Api.run, same]
      · rw [Api.run, result]
        split <;> rfl
  | input data => exact roomy.input data
  | update current =>
      obtain ⟨moved, effect, -⟩ := ikcpUpdate_effect kcp current
      exact roomy.flush inRange effect
  | flush =>
      obtain ⟨moved, effect, -⟩ := ikcpFlush_effect kcp
      exact roomy.flush inRange effect
  | setmtu mtu => exact roomy.setmtu mtu room
  | interval ms => exact roomy.same inRange ⟨rfl, rfl, rfl, rfl⟩ rfl
  | nodelay on ms resend nc =>
      refine roomy.same inRange (ikcpNodelay_sameSending kcp on ms resend nc) ?_
      obtain ⟨_, _, _, _, _, result, -⟩ := ikcpNodelay_eq kcp on ms resend nc
      rw [Api.run, result]
  | wndsize sndwnd rcvwnd =>
      refine roomy.same inRange (ikcpWndsize_sameSending kcp sndwnd rcvwnd) ?_
      rw [Api.run, ikcpWndsize]
      split <;> split <;> rfl

/-- A segment above the unit would be above the buffer, too; there is none. -/
theorem Roomy.flushInBounds (current updated tsFlush : UInt32) :
    FlushInBounds { kcp with current := current, updated := updated, tsFlush := tsFlush } := by
  generalize started : ({ kcp with current := current, updated := updated, tsFlush := tsFlush } :
    Kcpcb) = block
  have short : block.Short := started ▸ { roomy.short with }
  have room := short.room
  have narrow : block.mtu.toNat < 2 ^ 30 := started ▸ roomy.narrow
  have wide : block.mtu.toNat ≤ block.capacity.toNat := by
    rw [capacity_toNat narrow]
    omega
  rw [flushInBounds_iff narrow]
  intro seg member
  cases flushed_emitted member with
  | ack cmd conv una frg data pending =>
      rw [Segment.len, data]
      exact room.trans wide
  | probe cmd conv una frg data =>
      rw [Segment.len, data]
      exact room.trans wide
  | data core una =>
      obtain ⟨kept, inBuf, same⟩ := List.mem_map.mp core
      obtain ⟨moved, rest, buf, _, _, split, admitted, cores⟩ := admitStage_effect block
      rw [admitted] at inBuf
      have fits := short_of_admitted short split cores kept inBuf
      have sameData : kept.data = seg.data := (congrArg Segment.data same :)
      rw [Segment.len, ← sameData]
      exact fits.trans wide

end Steps

theorem Roomy.runApi {kcp : Kcpcb} (roomy : Roomy kcp) (calls : List Api)
    (room : EachKeepsRoom kcp calls) : Roomy (runApi kcp calls).1 := by
  induction calls generalizing kcp with
  | nil => exact roomy
  | cons call calls inductionHypothesis =>
      exact inductionHypothesis (roomy.run call room.1) room.2

theorem Roomy.fresh (conv : UInt32) (stream : Int32) : Roomy (fresh conv stream) where
  inRange := InRange.fresh conv stream
  narrow := by
    show ikcpMtuDef.toNat < 2 ^ 30
    decide
  queue := by simp [Kcp.fresh, ikcpCreate]
  buf := by simp [Kcp.fresh, ikcpCreate]

/-! ### What is in a datagram -/

/-- A segment on the wire: data is one of the admitted segments under its number,
and the other commands carry none. -/
structure Sent (conv : UInt32) (admitted : List Segment) (seg : Segment) : Prop
    extends seg.Readable where
  push : seg.cmd = ikcpCmdPush → seg.core ∈ numbered conv 0 admitted
  bare : seg.cmd ≠ ikcpCmdPush → seg.data = []
  conv : seg.conv = conv

theorem Emitted.sent {conv : UInt32} {kcp kcp' : Kcpcb} {bytes : Bytes}
    {admitted : List Segment} (same : kcp.conv = conv)
    (inOrder : InOrder conv bytes admitted kcp') (roomy : Roomy kcp') {seg : Segment}
    (emitted : Emitted kcp kcp'.sndBuf seg) : Sent conv admitted seg := by
  have control : seg.cmd ≠ ikcpCmdPush → seg.conv = kcp.conv → seg.frg = 0 → seg.data = [] →
      (seg.cmd = ikcpCmdAck ∨ seg.cmd = ikcpCmdWask ∨ seg.cmd = ikcpCmdWins) →
      Sent conv admitted seg := fun other conv frg data known =>
    { known := Or.inr known
      frg := by rw [frg]; decide
      len := by rw [Segment.len, data]; decide
      conv := conv.trans same
      push := fun isPush => absurd isPush other
      bare := fun _ => data }
  cases emitted with
  | ack cmd conv una frg data pending =>
      exact control (by rw [cmd]; decide) conv frg data (Or.inl cmd)
  | probe cmd conv una frg data =>
      refine control ?_ conv frg data (Or.inr cmd)
      rcases cmd with ask | tell
      · rw [ask]
        decide
      · rw [tell]
        decide
  | data member una =>
      obtain ⟨kept, inBuf, same⟩ := List.mem_map.mp member
      have held := inOrder.sndBuf kept inBuf
      have fits := (roomy.buf kept inBuf).core same
      have unit : 50 ≤ kcp'.mtu.toNat ∧ kcp'.mtu.toNat < 2 ^ 31 := roomy.inRange.config.mtu
      rw [inOrder.conv, same] at held
      obtain ⟨source, -, conv, cmd, -, -⟩ := mem_numbered held
      have isPush : seg.cmd = ikcpCmdPush := cmd
      exact
        { known := Or.inl isPush
          frg := fits.frg.trans (by decide)
          len := by
            have := fits.len
            omega
          conv := conv
          push := fun _ => held
          bare := fun other => absurd isPush other }

/-- A datagram of whole segments is accepted by every block of the conversation. -/
theorem accepted_of_sent {conv : UInt32} {admitted : List Segment} {limit : Nat}
    {packet : Datagram} (sound : Packing.Packet Segment.encode (Sent conv admitted) limit packet)
    (narrow : limit < 2 ^ 31) (peer : Kcpcb) (same : peer.conv = conv) :
    (ikcpInput peer packet).1 = 0 := by
  obtain ⟨segs, rfl, all⟩ := sound.carries
  have some' : segs ≠ [] := fun none' => sound.nonempty (by rw [none']; rfl)
  exact (ikcpInput_segments peer segs some' (Nat.lt_of_le_of_lt sound.length_le narrow)
    (fun seg member => (all seg member).toReadable)
    fun seg member => (all seg member).conv.trans same.symm).1

theorem Roomy.emits {conv : UInt32} {kcp : Kcpcb} {bytes : Bytes} {admitted : List Segment}
    (roomy : Roomy kcp) (inOrder : InOrder conv bytes admitted kcp) (call : Api) :
    ∀ packet ∈ (call.run kcp).2,
      Packing.Packet Segment.encode (Sent conv (admitted ++ call.admitted kcp)) kcp.mtu.toNat
        packet := by
  have after := inOrder.run call
  cases call with
  | update current =>
      obtain ⟨moved, effect, emits⟩ := ikcpUpdate_effect kcp current
      have roomy' := roomy.flush (roomy.inRange.update current) effect
      exact fun packet member => (emits roomy.short packet member).mono
        fun seg emitted => emitted.sent inOrder.conv after roomy'
  | flush =>
      obtain ⟨moved, effect, emits⟩ := ikcpFlush_effect kcp
      have roomy' := roomy.flush roomy.inRange.flush effect
      exact fun packet member => (emits roomy.short packet member).mono
        fun seg emitted => emitted.sent inOrder.conv after roomy'
  | _ => simp [Api.run]

/-- After any calls that keep the unit below `2 ^ 30` and leave room for the
segments already cut, each datagram the next call hands over is a non-empty run
of whole segments within the unit, its data segments are admitted ones under
their numbers, and every block of the conversation accepts it; and a flush at any
clock stays inside the buffer as allocated. -/
theorem datagrams_sound (conv : UInt32) (stream : Int32) (calls : List Api) (next : Api)
    (room : EachKeepsRoom (fresh conv stream) calls) :
    let kcp := (runApi (fresh conv stream) calls).1
    let admitted := admittedSegments (fresh conv stream) calls ++ next.admitted kcp
    (∀ packet ∈ (next.run kcp).2,
      Packing.Packet Segment.encode (Sent conv admitted) kcp.mtu.toNat packet ∧
        ∀ peer : Kcpcb, peer.conv = conv → (ikcpInput peer packet).1 = 0) ∧
      ∀ current updated tsFlush,
        FlushInBounds { kcp with current := current, updated := updated, tsFlush := tsFlush } := by
  have roomy := (Roomy.fresh conv stream).runApi calls room
  have inOrder := (InOrder.fresh conv stream).runApi calls
  have unit : _ ∧ (runApi (fresh conv stream) calls).1.mtu.toNat < 2 ^ 31 :=
    roomy.inRange.config.mtu
  have emits := roomy.emits inOrder next
  constructor
  · intro packet member
    have sound := emits packet member
    exact ⟨sound, accepted_of_sent sound unit.2⟩
  · exact roomy.flushInBounds

/-- Two segments of a narrow unit. -/
def narrowCalls : List Api :=
  [.setmtu 60, .nodelay 1 10 2 1, .send (List.replicate 50 7) 50]

theorem datagrams_sound_narrow :
    let packets := ((Api.update 10).run (runApi (fresh 1 0) narrowCalls).1).2
    packets.length = 2 ∧ ∀ packet ∈ packets, packet.length ≤ 60 := by
  have room : EachKeepsRoom (fresh 1 0) narrowCalls := 
    ⟨⟨by decide, by decide⟩, trivial, trivial, trivial⟩
  have unit : (runApi (fresh 1 0) narrowCalls).1.mtu.toNat = 60 := by decide
  refine ⟨by decide, fun packet member => ?_⟩
  rw [← unit]
  exact ((datagrams_sound 1 0 narrowCalls (.update 10) room).1 packet member).1.length_le

end KcpTest.Kcp
