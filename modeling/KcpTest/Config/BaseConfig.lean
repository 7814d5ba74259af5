import KcpTest.Config.Yaml

/-!
Contract: `BaseConfig`, its loader and its writer.

Owns: the state of the class, `fromYamlLoadConfig`, `writeYamlConfig` and what
loading a written document gives.

Does **not** own files: the writer gives a document and the loader gets one.
-/

set_option autoImplicit false

namespace KcpTest.Config

open KcpTest KcpTest.Message

structure NetAddr where
  localIp : Message.Bytes
  remoteIp : Message.Bytes
  localPort : Int32
  remotePort : Int32
  deriving DecidableEq

inductive Role where
  | invalid
  | client
  | server
  | all
  deriving DecidableEq

inductive TranTool where
  | udp
  | kcp
  | enet
  | udt
  | usrsctp
  | uret
  | rudp
  deriving DecidableEq

/-- `transferTool` is the unordered map; the order of its entries is no part of
the state. -/
structure BaseConfig where
  addr : NetAddr
  kcpConv : Int32
  role : Role
  transferTool : TranTool → Option Int32

def BaseConfig.setTool (this : BaseConfig) (tool : TranTool) : BaseConfig :=
  { this with
    transferTool := fun other => if other = tool then some 1 else this.transferTool other }

/-! ### Loading -/

/-- What `strcmp` sees of a string. -/
def cString (text : Message.Bytes) : Message.Bytes := text.takeWhile (· ≠ 0)

def roleOf (text : Message.Bytes) : Role :=
  if cString text = ascii "client" then .client
  else if cString text = ascii "server" then .server
  else if cString text = ascii "all" then .all
  else .invalid

def toolOf (text : Message.Bytes) : Option TranTool :=
  if cString text = ascii "udp" then some .udp
  else if cString text = ascii "kcp" then some .kcp
  else if cString text = ascii "udt" then some .udt
  else if cString text = ascii "enet" then some .enet
  else if cString text = ascii "usrsctp" then some .usrsctp
  else none

def loadTools (tools : Node) (this : BaseConfig) : List Nat → Except Thrown BaseConfig
  | [] => .ok this
  | i :: rest => do
      let name ← asString (← tools.get (.int (Int32.ofNat i)))
      match toolOf name with
      | some tool => loadTools tools (this.setTool tool) rest
      | none => loadTools tools this rest

/-- The conversation; without one, or with zero, it is 123456. -/
def loadConv (config : Node) : Except Thrown Int32 := do
  match ← config.get (.text (ascii "kcp")) with
  | none => return 123456
  | some kcp =>
      match ← kcp.get (.text (ascii "conv")) with
      | none => return 123456
      | some conv =>
          let n ← asInt (some conv)
          return if n ≠ 0 then n else 123456

def loadIp (net : Node) (key : String) (old : Message.Bytes) : Except Thrown Message.Bytes := do
  match ← net.get (.text (ascii key)) with
  | none => return old
  | some ip => asString (some ip)

def loadPort (net : Node) (key : String) (old : Int32) : Except Thrown Int32 := do
  match ← net.get (.text (ascii key)) with
  | none => return old
  | some port => asInt (some port)

def loadAddr (net : Node) (addr : NetAddr) : Except Thrown NetAddr := do
  let localIp ← loadIp net "local_ip" addr.localIp
  let remoteIp ← loadIp net "remote_ip" addr.remoteIp
  let localPort ← loadPort net "local_port" addr.localPort
  let remotePort ← loadPort net "remote_port" addr.remotePort
  return { localIp, remoteIp, localPort, remotePort }

/-- `BaseConfig::fromYamlLoadConfig` on the document in the file. Members set
before it fails stay set. -/
def fromYamlLoadConfig (config : Node) (this : BaseConfig) :
    Except Thrown (Int32 × BaseConfig) := do
  match ← config.get (.text (ascii "role")) with
  | none => return (-1, this)
  | some role =>
      let this := { this with role := roleOf (← asString (some role)) }
      match ← config.get (.text (ascii "transfer_tool")) with
      | none => return (-1, this)
      | some tools =>
          let this ← loadTools tools this (List.range tools.size)
          let this := { this with kcpConv := ← loadConv config }
          match ← config.get (.text (ascii "net")) with
          | none => return (-1, this)
          | some net =>
              let addr ← loadAddr net this.addr
              return (0, { this with addr := addr })

/-! ### Writing -/

/-- The value of the character constant `'role'`, an `int` of four characters. -/
def roleLiteral : Int32 := 0x726f6c65

def roleText : Role → Message.Bytes
  | .invalid => ascii "invalid"
  | .client => ascii "client"
  | .server => ascii "server"
  | .all => ascii "all"

def toolText : TranTool → Option Message.Bytes
  | .udp => some (ascii "udp")
  | .kcp => some (ascii "kcp")
  | .udt => some (ascii "udt")
  | .enet => some (ascii "enet")
  | .usrsctp => some (ascii "usrsctp")
  | .uret => none
  | .rudp => none

/-- The names pushed for the entries of the map, which come in `order`. -/
def toolTexts (this : BaseConfig) (order : List TranTool) : List Message.Bytes :=
  order.filterMap fun tool => if this.transferTool tool = some 1 then toolText tool else none

/-- `BaseConfig::writeYamlConfig`, up to the document it writes. -/
def writeYamlConfig (this : BaseConfig) (order : List TranTool) : Node :=
  let config := assign [.int roleLiteral] (.scalar (roleText this.role)) (some .null)
  let config := assign [.text (ascii "transfer_tool")]
    (.sequence ((toolTexts this order).map .scalar)) (some config)
  let config := assign [.text (ascii "kcp"), .text (ascii "conv")]
    (.scalar (printInt this.kcpConv)) (some config)
  let config := assign [.text (ascii "net"), .text (ascii "local_ip")]
    (.scalar this.addr.localIp) (some config)
  let config := assign [.text (ascii "net"), .text (ascii "local_port")]
    (.scalar (printInt this.addr.localPort)) (some config)
  let config := assign [.text (ascii "net"), .text (ascii "remote_ip")]
    (.scalar this.addr.remoteIp) (some config)
  assign [.text (ascii "net"), .text (ascii "remote_port")]
    (.scalar (printInt this.addr.remotePort)) (some config)

/-! ### Loading what was written -/

/-- Loading the written document succeeds and gives the same role, enabled
tools, conversation and addresses. -/
def RoundTrips (config fresh : BaseConfig) (order : List TranTool) : Prop :=
  ∃ loaded, fromYamlLoadConfig (writeYamlConfig config order) fresh = .ok (0, loaded) ∧
    loaded.role = config.role ∧
    (∀ tool, loaded.transferTool tool = some 1 ↔ config.transferTool tool = some 1) ∧
    loaded.kcpConv = config.kcpConv ∧ loaded.addr = config.addr

/-- The key of the role is a number, so the string `role` is no key of the
document. -/
theorem written_lacks_role (config : BaseConfig) (order : List TranTool) :
    Lacks (.text (ascii "role")) (writeYamlConfig config order) := by
  dsimp only [writeYamlConfig]
  -- the three addresses, the first address, the conversation and the tools
  iterate 6 refine Lacks.assign ?_ (by decide) _ _
  exact Lacks.assign_null (by decide) _ _

/-- No state survives a write and a load, whatever order the map has: the loader
stops at the missing role. -/
theorem never_round_trips (config fresh : BaseConfig) (order : List TranTool) :
    ¬ RoundTrips config fresh order := by
  rintro ⟨loaded, success, -⟩
  have stopped : fromYamlLoadConfig (writeYamlConfig config order) fresh = .ok (-1, fresh) := by
    rw [fromYamlLoadConfig, (written_lacks_role config order).get]
    rfl
  rw [stopped] at success
  have failed : (-1 : Int32) = 0 := congrArg Prod.fst (Except.ok.inj success)
  exact absurd failed (by decide)

/-- A client with the tool kcp. -/
def clientConfig : BaseConfig where
  addr := { localIp := ascii "127.0.0.1", remoteIp := ascii "127.0.0.1", localPort := 1785,
            remotePort := 1786 }
  kcpConv := 123456
  role := .client
  transferTool := fun tool => if tool = .kcp then some 1 else none

theorem not_round_trips :
    ¬ ∀ (config fresh : BaseConfig) (order : List TranTool), order.Nodup →
      (∀ tool, tool ∈ order ↔ (config.transferTool tool).isSome = true) →
      (∀ tool, fresh.transferTool tool = none) → RoundTrips config fresh order := by
  intro roundTrips
  let fresh : BaseConfig := { clientConfig with transferTool := fun _ => none }
  obtain ⟨loaded, success, -⟩ := roundTrips clientConfig fresh [.kcp] (by decide)
    (by intro tool; cases tool <;> decide) (fun _ => rfl)
  have stopped : (fromYamlLoadConfig (writeYamlConfig clientConfig [.kcp]) fresh).toOption.map
      Prod.fst = some (-1) := by decide
  rw [success] at stopped
  have wrong : some (0 : Int32) = some (-1) := stopped
  exact absurd wrong (by decide)

end KcpTest.Config
