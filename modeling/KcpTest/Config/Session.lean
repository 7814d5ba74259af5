import KcpTest.Config.BaseConfig
import KcpTest.Endpoint.Output

/-!
Contract: the conversation of the endpoints that `start_kcp` starts.

Owns: `start_kcp` up to the control blocks it creates, the isolation of sessions
by their configured conversations, and the exact condition for it.

The addresses of a configuration only bind sockets, and `createKCP` takes nothing
else of it.
-/

set_option autoImplicit false

namespace KcpTest.Config

open KcpTest KcpTest.Message KcpTest.Endpoint
open KcpTest.Kcp (Kcpcb ikcpInput ikcpInput_segments ikcpInput_foreign Segment)

/-- A configuration that was loaded from a file. -/
structure Loaded where
  document : Node
  fresh : BaseConfig
  config : BaseConfig
  loads : fromYamlLoadConfig document fresh = .ok (0, config)

/-- The loaded conversation as KCP would take it. -/
def Loaded.conv (loaded : Loaded) : UInt32 := loaded.config.kcpConv.toUInt32

/-- The control blocks of the endpoints of `start_kcp`, in the order in which it
creates them. In its third mode it starts a receiver and then a sender. -/
def startKcp (config : BaseConfig) : List Kcpcb :=
  (if config.role = .client then [createKCP] else []) ++
    (if config.role = .server then [createKCP] else []) ++
      if config.role = .all then [createKCP, createKCP] else []

/-- A datagram of an endpoint of the first file, at an endpoint of the second
one, whatever each endpoint did before: it is accepted if the conversations are
equal, and otherwise rejected without a change. -/
def Isolated (first second : Loaded) : Prop :=
  ∀ sender ∈ startKcp first.config, ∀ receiver ∈ startKcp second.config,
    ∀ sent received : List Call, ∀ datagram ∈ (runCalls sender sent).2,
      let kcp := (runCalls receiver received).1
      if first.conv = second.conv then (ikcpInput kcp datagram).1 = 0
      else ikcpInput kcp datagram = (-1, kcp)

theorem eq_createKCP {config : BaseConfig} {kcp : Kcpcb} (started : kcp ∈ startKcp config) :
    kcp = createKCP := by
  unfold startKcp at started
  cases role : config.role <;> simp [role] at started <;> exact started

theorem startKcp_of_role {config : BaseConfig} (role : config.role ≠ .invalid) :
    createKCP ∈ startKcp config := by
  unfold startKcp
  cases same : config.role with
  | invalid => exact absurd same role
  | client => simp
  | server => simp
  | all => simp

/-- Every endpoint accepts what any endpoint emits. -/
theorem accepts_emitted (sent received : List Call) :
    ∀ datagram ∈ (runCalls createKCP sent).2,
      (ikcpInput (runCalls createKCP received).1 datagram).1 = 0 := by
  intro datagram member
  have packet := WellFormed.createKCP.emits_runCalls sent datagram member
  have formed := WellFormed.createKCP.runCalls received
  obtain ⟨segs, rfl, sendable⟩ := packet.carries
  have some' : segs ≠ [] := by
    rintro rfl
    exact packet.nonempty rfl
  have short : (segs.flatMap Segment.encode).length < 2 ^ 31 :=
    packet.length_le.trans_lt (by decide)
  exact (ikcpInput_segments _ segs some' short (fun seg inSegs => (sendable seg inSegs).toReadable)
    fun seg inSegs => (sendable seg inSegs).conv.trans formed.conv.symm).1

/-- The check itself tells conversations apart: a control block with another
conversation rejects what an endpoint emits and stays as it is. -/
theorem rejects_foreign (sent : List Call) {kcp : Kcpcb} (foreign : createKCP.conv ≠ kcp.conv) :
    ∀ datagram ∈ (runCalls createKCP sent).2, ikcpInput kcp datagram = (-1, kcp) := by
  intro datagram member
  have packet := WellFormed.createKCP.emits_runCalls sent datagram member
  have short := packet.length_le
  obtain ⟨segs, rfl, sendable⟩ := packet.carries
  cases segs with
  | nil => exact absurd rfl packet.nonempty
  | cons seg rest =>
      have conv := (sendable seg List.mem_cons_self).conv
      rw [List.flatMap_cons] at short ⊢
      exact ikcpInput_foreign kcp seg _ (short.trans_lt (by decide)) (conv ▸ foreign)

/-- An endpoint emits a datagram. -/
theorem emits_greeting :
    ∃ datagram, datagram ∈ (runCalls createKCP [.send [104] 1 100 110]).2 :=
  List.exists_mem_of_ne_nil _ (by decide)

/-- The conversations of the files make no difference. -/
theorem not_isolated_of_conv_ne {first second : Loaded} (different : first.conv ≠ second.conv)
    (firstRole : first.config.role ≠ .invalid) (secondRole : second.config.role ≠ .invalid) :
    ¬ Isolated first second := by
  intro isolated
  obtain ⟨datagram, emitted⟩ := emits_greeting
  have rejected := isolated _ (startKcp_of_role firstRole) _ (startKcp_of_role secondRole)
    _ [] datagram emitted
  rw [if_neg different] at rejected
  have accepted := accepts_emitted _ [] datagram emitted
  rw [rejected] at accepted
  exact absurd accepted (by decide)

/-- Sessions are isolated if and only if there is nothing to isolate: the
conversations are equal, or one file starts no endpoint. -/
theorem isolated_iff (first second : Loaded) :
    Isolated first second ↔
      first.conv = second.conv ∨ first.config.role = .invalid ∨
        second.config.role = .invalid := by
  constructor
  · intro isolated
    by_contra apart
    simp only [not_or] at apart
    obtain ⟨different, firstRole, secondRole⟩ := apart
    exact not_isolated_of_conv_ne different firstRole secondRole isolated
  · rintro (same | none' | none')
    · intro sender firstStarted receiver secondStarted sent received datagram emitted
      rw [if_pos same]
      rw [eq_createKCP firstStarted] at emitted
      rw [eq_createKCP secondStarted]
      exact accepts_emitted sent received datagram emitted
    · intro sender started
      simp [startKcp, none'] at started
    · intro sender _ receiver started
      simp [startKcp, none'] at started

/-- A file for a server, with a conversation. -/
def serverDocument (conv : Int32) : Node :=
  .map [(.scalar (ascii "role"), .scalar (ascii "server")),
    (.scalar (ascii "transfer_tool"), .sequence [.scalar (ascii "kcp")]),
    (.scalar (ascii "kcp"), .map [(.scalar (ascii "conv"), .scalar (printInt conv))]),
    (.scalar (ascii "net"), .map [])]

def emptyConfig : BaseConfig where
  addr := { localIp := [], remoteIp := [], localPort := 0, remotePort := 0 }
  kcpConv := 0
  role := .invalid
  transferTool := fun _ => none

def loadedServer1 : Loaded where
  document := serverDocument 1
  fresh := emptyConfig
  config := { (emptyConfig.setTool .kcp) with kcpConv := 1, role := .server }
  loads := rfl

def loadedServer2 : Loaded where
  document := serverDocument 2
  fresh := emptyConfig
  config := { (emptyConfig.setTool .kcp) with kcpConv := 2, role := .server }
  loads := rfl

/-- Two files with different conversations whose endpoints talk to each other. -/
theorem not_isolated : ¬ ∀ first second : Loaded, Isolated first second := fun isolated =>
  absurd (isolated loadedServer1 loadedServer2)
    (not_isolated_of_conv_ne (by decide) (by decide) (by decide))

end KcpTest.Config
