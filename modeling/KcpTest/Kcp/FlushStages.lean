import KcpTest.Kcp.Flush

/-!
Contract: the stages of one `ikcp_flush`.

Owns: the part of a segment that no retransmission changes, the configuration
no call changes, what each loop of a flush does to the queues and to the
staging buffer, and the fields a flush sets.
-/

set_option autoImplicit false

namespace KcpTest.Kcp

open KcpTest.Library

/-! ### What stays -/

/-- A segment without the fields that change while it waits in `snd_buf`. -/
def Segment.core (seg : Segment) : Segment where
  conv := seg.conv
  cmd := seg.cmd
  frg := seg.frg
  sn := seg.sn
  data := seg.data

/-- The fields of the control block that only the configuration calls set. -/
structure Config where
  conv : UInt32
  mtu : UInt32
  mss : UInt32
  sndWnd : UInt32
  rcvWnd : UInt32
  rxMinrto : Int32
  interval : UInt32
  nodelay : UInt32
  deadLink : UInt32
  fastresend : Int32
  fastlimit : Int32
  nocwnd : Int32
  stream : Int32

def Kcpcb.config (kcp : Kcpcb) : Config where
  conv := kcp.conv
  mtu := kcp.mtu
  mss := kcp.mss
  sndWnd := kcp.sndWnd
  rcvWnd := kcp.rcvWnd
  rxMinrto := kcp.rxMinrto
  interval := kcp.interval
  nodelay := kcp.nodelay
  deadLink := kcp.deadLink
  fastresend := kcp.fastresend
  fastlimit := kcp.fastlimit
  nocwnd := kcp.nocwnd
  stream := kcp.stream

/-- The receiving half of the control block. -/
structure Inbound where
  rcvNxt : UInt32
  rcvQueue : List Segment
  rcvBuf : List Segment

def Kcpcb.inbound (kcp : Kcpcb) : Inbound where
  rcvNxt := kcp.rcvNxt
  rcvQueue := kcp.rcvQueue
  rcvBuf := kcp.rcvBuf

/-! ### Admission -/

/-- The segments of `queue` as `snd_buf` holds them, numbered from `nxt`. -/
def numbered (conv nxt : UInt32) : List Segment → List Segment
  | [] => []
  | seg :: queue =>
      { seg.core with conv := conv, cmd := ikcpCmdPush, sn := nxt } ::
        numbered conv (nxt + 1) queue

theorem admitLoop_effect (wnd cwnd : UInt32) (queue : List Segment) (kcp : Kcpcb) :
    ∃ moved rest buf,
      queue = moved ++ rest ∧
      admitLoop wnd cwnd queue kcp =
        { kcp with
          sndQueue := rest
          sndBuf := buf
          sndNxt := kcp.sndNxt + UInt32.ofNat moved.length } ∧
      buf.map Segment.core =
        kcp.sndBuf.map Segment.core ++ numbered kcp.conv kcp.sndNxt moved := by
  induction queue generalizing kcp with
  | nil => exact ⟨[], [], kcp.sndBuf, rfl, by simp [admitLoop], by simp [numbered]⟩
  | cons newseg queue inductionHypothesis =>
      by_cases room : itimediff kcp.sndNxt (kcp.sndUna + cwnd) < 0
      · obtain ⟨moved, rest, buf, split, result, cores⟩ := inductionHypothesis
          { kcp with
            sndBuf := kcp.sndBuf ++ [admitSegment kcp wnd newseg]
            sndNxt := kcp.sndNxt + 1 }
        refine ⟨newseg :: moved, rest, buf, by rw [split]; rfl, ?_, ?_⟩
        · rw [admitLoop, if_pos room, result]
          have count : kcp.sndNxt + 1 + UInt32.ofNat moved.length =
              kcp.sndNxt + UInt32.ofNat (moved.length + 1) := by
            rw [UInt32.ofNat_add, UInt32.add_assoc, UInt32.add_comm 1]
            rfl
          simp [count]
        · simpa [numbered, admitSegment, Segment.core] using cores
      · exact ⟨[], newseg :: queue, kcp.sndBuf, rfl, by simp [admitLoop, room],
          by simp [numbered]⟩

theorem mem_numbered {conv nxt : UInt32} {queue : List Segment} {seg : Segment}
    (member : seg ∈ numbered conv nxt queue) :
    ∃ source ∈ queue, seg.conv = conv ∧ seg.cmd = ikcpCmdPush ∧ seg.frg = source.frg ∧
      seg.data = source.data := by
  induction queue generalizing nxt with
  | nil => simp [numbered] at member
  | cons head queue inductionHypothesis =>
      rcases List.mem_cons.mp member with rfl | later
      · exact ⟨head, List.mem_cons_self, rfl, rfl, rfl, rfl⟩
      · obtain ⟨source, inQueue, facts⟩ := inductionHypothesis later
        exact ⟨source, List.mem_cons_of_mem _ inQueue, facts⟩

/-! ### The data loop -/

@[simp] theorem stamp_core (kcp : Kcpcb) (wnd : UInt32) (segment : Segment) (reason : Reason) :
    (stamp kcp wnd segment reason).core = segment.core := by
  cases reason <;> rfl

/-- One round keeps the segment, up to its retransmission fields, and stages at
most that segment. -/
theorem flushSegment_cases (kcp : Kcpcb) (wnd : UInt32) (pass : DataPass) (segment : Segment) :
    ∃ kept : Segment, kept.core = segment.core ∧
      (flushSegment kcp wnd pass segment).passed = pass.passed ++ [kept] ∧
      ((flushSegment kcp wnd pass segment).staging = pass.staging ∨
        kept.una = kcp.rcvNxt ∧
          (flushSegment kcp wnd pass segment).staging =
            putSegment kcp.mtu pass.staging kept) := by
  cases decided : sendReason kcp segment with
  | none => exact ⟨segment, rfl, by simp [flushSegment, decided], by simp [flushSegment, decided]⟩
  | some reason =>
      refine ⟨stamp kcp wnd segment reason, stamp_core _ _ _ _, ?_, Or.inr ⟨rfl, ?_⟩⟩
      · simp [flushSegment, decided]
      · simp [flushSegment, decided]

theorem foldl_flushSegment_core (kcp : Kcpcb) (wnd : UInt32) (buf : List Segment)
    (pass : DataPass) :
    (buf.foldl (flushSegment kcp wnd) pass).passed.map Segment.core =
      pass.passed.map Segment.core ++ buf.map Segment.core := by
  induction buf generalizing pass with
  | nil => simp
  | cons segment buf inductionHypothesis =>
      obtain ⟨kept, core, passed, -⟩ := flushSegment_cases kcp wnd pass segment
      rw [List.foldl_cons, inductionHypothesis, passed]
      simp [core]

/-- The data loop stages segments it leaves in `snd_buf`, stamped with the
current `rcv_nxt`. -/
theorem foldl_flushSegment_fits {P : Segment → Prop} (kcp : Kcpcb) (wnd : UInt32)
    (buf : List Segment) (pass : DataPass)
    (fits : pass.staging.Fits Segment.encode P kcp.mtu.toNat)
    (short : ∀ segment ∈ buf, 24 + segment.len ≤ kcp.mtu.toNat)
    (holds : ∀ segment, segment.core ∈ buf.map Segment.core → segment.una = kcp.rcvNxt →
      P segment) :
    (buf.foldl (flushSegment kcp wnd) pass).staging.Fits Segment.encode P kcp.mtu.toNat := by
  induction buf generalizing pass with
  | nil => exact fits
  | cons segment buf inductionHypothesis =>
      obtain ⟨kept, core, -, staged⟩ := flushSegment_cases kcp wnd pass segment
      rw [List.foldl_cons]
      apply inductionHypothesis
      · rcases staged with same | ⟨una, put⟩
        · rw [same]
          exact fits
        · rw [put]
          have sameData : kept.data = segment.data := (congrArg Segment.data core :)
          apply fits.put
          · exact holds kept (by simp [core]) una
          · rw [Segment.encode_length, Segment.len, sameData]
            exact short segment List.mem_cons_self
      · exact fun other member => short other (List.mem_cons_of_mem _ member)
      · exact fun other member una => holds other (List.mem_cons_of_mem _ member) una

/-! ### Acknowledgements and probes -/

/-- What a segment encoded by a flush of `kcp` is. -/
inductive Emitted (kcp : Kcpcb) (buf : List Segment) (seg : Segment) : Prop
  | ack (cmd : seg.cmd = ikcpCmdAck) (conv : seg.conv = kcp.conv) (una : seg.una = kcp.rcvNxt)
      (frg : seg.frg = 0) (data : seg.data = []) (pending : (seg.sn, seg.ts) ∈ kcp.acklist)
  | probe (cmd : seg.cmd = ikcpCmdWask ∨ seg.cmd = ikcpCmdWins) (conv : seg.conv = kcp.conv)
      (una : seg.una = kcp.rcvNxt) (frg : seg.frg = 0) (data : seg.data = [])
  | data (member : seg.core ∈ buf.map Segment.core) (una : seg.una = kcp.rcvNxt)

theorem Emitted.congr {kcp kcp' : Kcpcb} {buf buf' : List Segment} {seg : Segment}
    (emitted : Emitted kcp buf seg) (conv : kcp'.conv = kcp.conv)
    (rcvNxt : kcp'.rcvNxt = kcp.rcvNxt) (acklist : kcp'.acklist = kcp.acklist)
    (cores : buf'.map Segment.core = buf.map Segment.core) : Emitted kcp' buf' seg := by
  cases emitted with
  | ack cmd sameConv una frg data pending =>
      exact .ack cmd (sameConv.trans conv.symm) (una.trans rcvNxt.symm) frg data
        (acklist ▸ pending)
  | probe cmd sameConv una frg data =>
      exact .probe cmd (sameConv.trans conv.symm) (una.trans rcvNxt.symm) frg data
  | data member una => exact .data (cores ▸ member) (una.trans rcvNxt.symm)

/-- The fields of the template that the acknowledgement loop leaves alone. -/
structure Template (kcp : Kcpcb) (seg : Segment) : Prop where
  conv : seg.conv = kcp.conv
  cmd : seg.cmd = ikcpCmdAck
  frg : seg.frg = 0
  una : seg.una = kcp.rcvNxt
  data : seg.data = []

theorem Template.flushTemplate (kcp : Kcpcb) : Template kcp (flushTemplate kcp) :=
  ⟨rfl, rfl, rfl, rfl, rfl⟩

theorem Template.encode_length {kcp : Kcpcb} {seg : Segment} (template : Template kcp seg) :
    seg.encode.length = 24 := by
  rw [Segment.encode_length, Segment.len, template.data]
  rfl

theorem putAck_fst (mtu : UInt32) (pass : Staging × Segment) (ack : UInt32 × UInt32) :
    (putAck mtu pass ack).1 =
      pass.1.put mtu.toNat (Segment.encode { pass.2 with sn := ack.1, ts := ack.2 }) := rfl

theorem foldl_putAck {P : Segment → Prop} {kcp : Kcpcb} (room : 24 ≤ kcp.mtu.toNat)
    (acks : List (UInt32 × UInt32)) (pass : Staging × Segment)
    (template : Template kcp pass.2)
    (fits : pass.1.Fits Segment.encode P kcp.mtu.toNat)
    (holds : ∀ seg, Template kcp seg → (seg.sn, seg.ts) ∈ acks → P seg) :
    Template kcp (acks.foldl (putAck kcp.mtu) pass).2 ∧
      (acks.foldl (putAck kcp.mtu) pass).1.Fits Segment.encode P kcp.mtu.toNat := by
  induction acks generalizing pass with
  | nil => exact ⟨template, fits⟩
  | cons ack acks inductionHypothesis =>
      have next : Template kcp { pass.2 with sn := ack.1, ts := ack.2 } := { template with }
      rw [List.foldl_cons]
      apply inductionHypothesis
      · exact next
      · rw [putAck_fst]
        exact fits.put (holds _ next List.mem_cons_self) (by rw [next.encode_length]; exact room)
      · exact fun seg isTemplate member =>
          holds seg isTemplate (List.mem_cons_of_mem _ member)

theorem putProbe_fits {P : Segment → Prop} {kcp probed : Kcpcb} {seg : Segment}
    {staging : Staging} (ask cmd : UInt32) (sameMtu : probed.mtu = kcp.mtu)
    (room : 24 ≤ kcp.mtu.toNat) (template : Template kcp seg)
    (fits : staging.Fits Segment.encode P kcp.mtu.toNat)
    (holds : P { seg with cmd := cmd }) :
    (putProbe probed seg ask cmd staging).Fits Segment.encode P kcp.mtu.toNat := by
  unfold putProbe
  split
  · rw [sameMtu]
    refine fits.put holds ?_
    rw [Segment.encode_length, Segment.len, template.data]
    exact room
  · exact fits

/-- The probe timer touches only its own fields. -/
theorem probeTimer_eq (kcp : Kcpcb) :
    ∃ tsProbe probeWait probe,
      probeTimer kcp = { kcp with tsProbe := tsProbe, probeWait := probeWait, probe := probe } := by
  unfold probeTimer
  split
  · split
    · exact ⟨_, _, kcp.probe, rfl⟩
    · split
      · exact ⟨_, _, _, rfl⟩
      · exact ⟨kcp.tsProbe, kcp.probeWait, kcp.probe, rfl⟩
  · exact ⟨_, _, kcp.probe, rfl⟩

/-- The window changes touch only the congestion fields. -/
theorem updateSsthresh_eq (kcp : Kcpcb) (change : Nat) (lost : Bool) (cwnd : UInt32) :
    ∃ ssthresh cwnd' incr,
      updateSsthresh kcp change lost cwnd =
        { kcp with ssthresh := ssthresh, cwnd := cwnd', incr := incr } := by
  have onChange : ∃ ssthresh cwnd' incr, shrinkOnChange kcp change =
      { kcp with ssthresh := ssthresh, cwnd := cwnd', incr := incr } := by
    unfold shrinkOnChange
    split
    · exact ⟨_, _, _, rfl⟩
    · exact ⟨kcp.ssthresh, kcp.cwnd, kcp.incr, rfl⟩
  obtain ⟨ssthresh, cwnd₁, incr, changed⟩ := onChange
  have onLoss : ∃ ssthresh cwnd' incr, shrinkOnLoss (shrinkOnChange kcp change) lost cwnd =
      { kcp with ssthresh := ssthresh, cwnd := cwnd', incr := incr } := by
    rw [changed]
    unfold shrinkOnLoss
    split
    · exact ⟨_, _, _, rfl⟩
    · exact ⟨ssthresh, cwnd₁, incr, rfl⟩
  obtain ⟨ssthresh, cwnd₂, incr, shrunk⟩ := onLoss
  simp only [updateSsthresh, shrunk]
  split
  · exact ⟨_, _, _, rfl⟩
  · exact ⟨ssthresh, cwnd₂, incr, rfl⟩

/-! ### Stages of a flush -/

/-- After the acknowledgement loop: the staging buffer and the local `seg`. -/
def ackStage (kcp : Kcpcb) : Staging × Segment :=
  kcp.acklist.foldl (putAck kcp.mtu) (Packing.Staging.empty, flushTemplate kcp)

/-- After the probe timer. -/
def probeStage (kcp : Kcpcb) : Kcpcb := probeTimer { kcp with acklist := [] }

/-- The staging buffer in front of the data loop. -/
def probeStaging (kcp : Kcpcb) : Staging :=
  putProbe (probeStage kcp) (ackStage kcp).2 ikcpAskTell ikcpCmdWins
    (putProbe (probeStage kcp) (ackStage kcp).2 ikcpAskSend ikcpCmdWask (ackStage kcp).1)

/-- After the loop that fills `snd_buf`. -/
def admitStage (kcp : Kcpcb) : Kcpcb :=
  admitLoop (ackStage kcp).2.wnd (sendWindow { probeStage kcp with probe := 0 })
    (probeStage kcp).sndQueue { probeStage kcp with probe := 0 }

/-- After the data loop. -/
def dataStage (kcp : Kcpcb) : DataPass :=
  (admitStage kcp).sndBuf.foldl (flushSegment (admitStage kcp) (ackStage kcp).2.wnd)
    { staging := probeStaging kcp
      passed := []
      xmit := (admitStage kcp).xmit
      state := (admitStage kcp).state
      change := 0
      lost := false }

theorem ikcpFlush_stages {kcp : Kcpcb} (busy : kcp.updated ≠ 0) :
    ikcpFlush kcp =
      (updateSsthresh
        { admitStage kcp with
          sndBuf := (dataStage kcp).passed
          xmit := (dataStage kcp).xmit
          state := (dataStage kcp).state }
        (dataStage kcp).change (dataStage kcp).lost (sendWindow { probeStage kcp with probe := 0 }),
        (dataStage kcp).staging.finish) := by
  rw [ikcpFlush, if_neg busy]
  rfl

theorem admitStage_effect (kcp : Kcpcb) :
    ∃ moved rest buf tsProbe probeWait,
      kcp.sndQueue = moved ++ rest ∧
      admitStage kcp =
        { kcp with
          acklist := []
          tsProbe := tsProbe
          probeWait := probeWait
          probe := 0
          sndQueue := rest
          sndBuf := buf
          sndNxt := kcp.sndNxt + UInt32.ofNat moved.length } ∧
      buf.map Segment.core =
        kcp.sndBuf.map Segment.core ++ numbered kcp.conv kcp.sndNxt moved := by
  obtain ⟨tsProbe, probeWait, probe, probed⟩ := probeTimer_eq { kcp with acklist := [] }
  simp only [admitStage, probeStage, probed]
  obtain ⟨moved, rest, buf, split, admitted, cores⟩ :=
    admitLoop_effect (ackStage kcp).2.wnd
      (sendWindow { kcp with acklist := [], tsProbe := tsProbe, probeWait := probeWait, probe := 0 })
      kcp.sndQueue
      { kcp with acklist := [], tsProbe := tsProbe, probeWait := probeWait, probe := 0 }
  exact ⟨moved, rest, buf, tsProbe, probeWait, split, admitted, cores⟩

/-- The data loop keeps the segments of `snd_buf`, up to their retransmission
fields. -/
theorem dataStage_passed (kcp : Kcpcb) :
    (dataStage kcp).passed.map Segment.core = (admitStage kcp).sndBuf.map Segment.core := by
  rw [dataStage, foldl_flushSegment_core]
  rfl

/-- The fields a flush sets. -/
theorem ikcpFlush_eq (kcp : Kcpcb) :
    ∃ acklist tsProbe probeWait probe sndQueue sndNxt sndBuf xmit state ssthresh cwnd incr,
      (ikcpFlush kcp).1 =
        { kcp with
          acklist := acklist
          tsProbe := tsProbe
          probeWait := probeWait
          probe := probe
          sndQueue := sndQueue
          sndNxt := sndNxt
          sndBuf := sndBuf
          xmit := xmit
          state := state
          ssthresh := ssthresh
          cwnd := cwnd
          incr := incr } := by
  by_cases idle : kcp.updated = 0
  · rw [ikcpFlush, if_pos idle]
    exact ⟨kcp.acklist, kcp.tsProbe, kcp.probeWait, kcp.probe, kcp.sndQueue, kcp.sndNxt,
      kcp.sndBuf, kcp.xmit, kcp.state, kcp.ssthresh, kcp.cwnd, kcp.incr, rfl⟩
  · obtain ⟨moved, rest, buf, tsProbe, probeWait, -, admitted, -⟩ := admitStage_effect kcp
    obtain ⟨ssthresh, cwnd, incr, result⟩ := updateSsthresh_eq
      { admitStage kcp with
        sndBuf := (dataStage kcp).passed
        xmit := (dataStage kcp).xmit
        state := (dataStage kcp).state }
      (dataStage kcp).change (dataStage kcp).lost (sendWindow { probeStage kcp with probe := 0 })
    rw [ikcpFlush_stages idle, result, admitted]
    exact ⟨_, _, _, _, _, _, _, _, _, _, _, _, rfl⟩

end KcpTest.Kcp
