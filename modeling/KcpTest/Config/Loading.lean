import KcpTest.Config.BaseConfig

/-!
Contract: what a document decides about a load.

Owns: what a document says for each member of `BaseConfig`, the outcomes of
`fromYamlLoadConfig` in these terms, what a successful load leaves to the state
before it, and the exact condition for a load to fail cleanly.
-/

set_option autoImplicit false

namespace KcpTest.Config

open KcpTest KcpTest.Message

theorem bind_eq_ok {α β : Type} {first : Except Thrown α} {next : α → Except Thrown β}
    {result : β} :
    (first >>= next) = .ok result ↔ ∃ value, first = .ok value ∧ next value = .ok result := by
  cases first with
  | error thrown => simp [bind, Except.bind]
  | ok value => simp [bind, Except.bind]

/-! ### Subscripts with strings -/

def Node.isScalar : Node → Bool
  | .scalar _ => true
  | _ => false

/-- The value below a string. Only a map has one. -/
def Node.find (node : Node) (key : String) : Option Node :=
  match node with
  | .map entries =>
      (entries.find? fun entry => (Key.text (ascii key)).equals entry.1).map Prod.snd
  | _ => none

theorem Node.get_text_eq_ok {node : Node} {key : String} {value : Option Node} :
    node.get (.text (ascii key)) = .ok value ↔ node.isScalar = false ∧ node.find key = value := by
  cases node with
  | scalar text => simp [Node.get, Node.isScalar]
  | null => simp [Node.get, Node.isScalar, Node.find]
  | sequence items => simp [Node.get, Node.isScalar, Node.find]
  | map entries => simp [Node.get, Node.isScalar, Node.find]

theorem Node.isScalar_of_find {node value : Node} {key : String}
    (found : node.find key = some value) : node.isScalar = false := by
  cases node with
  | map entries => rfl
  | null => simp [Node.find] at found
  | scalar text => simp [Node.find] at found
  | sequence items => simp [Node.find] at found

/-! ### What a document says -/

/-- The role a document gives. -/
def SaysRole (config : Node) (role : Role) : Prop :=
  ∃ value text, config.find "role" = some value ∧ asString (some value) = .ok text ∧
    roleOf text = role

/-- The name at a position of `transfer_tool`. -/
def toolName (tools : Node) (i : Nat) : Except Thrown Message.Bytes := do
  asString (← tools.get (.int (Int32.ofNat i)))

def ToolsConvert (tools : Node) : Prop := ∀ i ∈ List.range tools.size, ∃ name,
  toolName tools i = .ok name

/-- One of the names is that of the tool. -/
def namesIn (tools : Node) (indices : List Nat) (tool : TranTool) : Bool :=
  indices.any fun i =>
    match toolName tools i with
    | .ok name => toolOf name = some tool
    | .error _ => false

def names (tools : Node) : TranTool → Bool := namesIn tools (List.range tools.size)

/-- The conversation a document gives. -/
inductive SaysConv (config : Node) : Int32 → Prop
  | noKcp (absent : config.find "kcp" = none) : SaysConv config 123456
  | noConv (kcp : Node) (found : config.find "kcp" = some kcp)
      (subscriptable : kcp.isScalar = false) (absent : kcp.find "conv" = none) :
      SaysConv config 123456
  | conv (kcp value : Node) (n : Int32) (found : config.find "kcp" = some kcp)
      (given : kcp.find "conv" = some value) (converts : asInt (some value) = .ok n) :
      SaysConv config (if n ≠ 0 then n else 123456)

/-- What becomes of a member that keeps its value when its key is absent. -/
def Settles {α : Type} (convert : Option Node → Except Thrown α) (net : Node) (key : String)
    (old new : α) : Prop :=
  match net.find key with
  | none => new = old
  | some value => convert (some value) = .ok new

/-- What becomes of the addresses. -/
structure SettlesAddr (net : Node) (old new : NetAddr) : Prop where
  localIp : Settles asString net "local_ip" old.localIp new.localIp
  remoteIp : Settles asString net "remote_ip" old.remoteIp new.remoteIp
  localPort : Settles asInt net "local_port" old.localPort new.localPort
  remotePort : Settles asInt net "remote_port" old.remotePort new.remotePort

/-! ### The sections of the loader -/

def BaseConfig.enable (this : BaseConfig) (named : TranTool → Bool) : BaseConfig :=
  { this with
    transferTool := fun tool => if named tool then some 1 else this.transferTool tool }

theorem loadTools_cons (tools : Node) (this : BaseConfig) (i : Nat) (rest : List Nat) :
    loadTools tools this (i :: rest) =
      toolName tools i >>= fun name =>
        match toolOf name with
        | some tool => loadTools tools (this.setTool tool) rest
        | none => loadTools tools this rest := by
  rw [loadTools, toolName]
  cases tools.get (.int (Int32.ofNat i)) <;> rfl

theorem BaseConfig.setTool_enable (this : BaseConfig) (tool : TranTool)
    (named : TranTool → Bool) :
    (this.setTool tool).enable named =
      this.enable fun other => decide (some tool = some other) || named other := by
  simp only [setTool, enable, BaseConfig.mk.injEq, true_and]
  funext other
  by_cases later : named other = true
  · simp [later]
  · by_cases same : other = tool
    · simp [same]
    · simp [later, same, Ne.symm same]

/-- The loop over the tools adds the tools that are named. -/
theorem loadTools_eq_ok {tools : Node} {indices : List Nat} {this after : BaseConfig} :
    loadTools tools this indices = .ok after ↔
      (∀ i ∈ indices, ∃ name, toolName tools i = .ok name) ∧
        after = this.enable (namesIn tools indices) := by
  induction indices generalizing this with
  | nil => simp [loadTools, namesIn, BaseConfig.enable, eq_comm]
  | cons i rest inductionHypothesis =>
      rw [loadTools_cons, bind_eq_ok, List.forall_mem_cons]
      cases converted : toolName tools i with
      | error thrown => simp
      | ok name =>
          have named : namesIn tools (i :: rest) = fun other =>
              decide (toolOf name = some other) || namesIn tools rest other := by
            funext other
            simp [namesIn, converted]
          rw [named]
          cases tool : toolOf name with
          | none => simp [tool, inductionHypothesis]
          | some tool' => simp [tool, inductionHypothesis, BaseConfig.setTool_enable]

theorem loadConv_eq_ok {config : Node} (subscriptable : config.isScalar = false) {conv : Int32} :
    loadConv config = .ok conv ↔ SaysConv config conv := by
  rw [loadConv, bind_eq_ok]
  constructor
  · intro ⟨kcp?, got, next⟩
    have found := (Node.get_text_eq_ok.mp got).2
    cases kcp? with
    | none =>
        obtain rfl : 123456 = conv := Except.ok.inj next
        exact .noKcp found
    | some kcp =>
        obtain ⟨value?, gotConv, last⟩ := bind_eq_ok.mp next
        obtain ⟨subscriptable, foundConv⟩ := Node.get_text_eq_ok.mp gotConv
        cases value? with
        | none =>
            obtain rfl : 123456 = conv := Except.ok.inj last
            exact .noConv kcp found subscriptable foundConv
        | some value =>
            obtain ⟨n, converts, result⟩ := bind_eq_ok.mp last
            obtain rfl : (if n ≠ 0 then n else 123456) = conv := Except.ok.inj result
            exact .conv kcp value n found foundConv converts
  · intro stated
    cases stated with
    | noKcp absent => exact ⟨none, Node.get_text_eq_ok.mpr ⟨subscriptable, absent⟩, rfl⟩
    | noConv kcp found kcpSubscriptable absent =>
        refine ⟨some kcp, Node.get_text_eq_ok.mpr ⟨subscriptable, found⟩, ?_⟩
        exact bind_eq_ok.mpr ⟨none, Node.get_text_eq_ok.mpr ⟨kcpSubscriptable, absent⟩, rfl⟩
    | conv kcp value n found given converts =>
        refine ⟨some kcp, Node.get_text_eq_ok.mpr ⟨subscriptable, found⟩, ?_⟩
        apply bind_eq_ok.mpr
        refine ⟨some value, Node.get_text_eq_ok.mpr ⟨Node.isScalar_of_find given, given⟩, ?_⟩
        exact bind_eq_ok.mpr ⟨n, converts, rfl⟩

/-- The reader of an address and that of a port in one. -/
def loadField {α : Type} (convert : Option Node → Except Thrown α) (net : Node) (key : String)
    (old : α) : Except Thrown α := do
  match ← net.get (.text (ascii key)) with
  | none => return old
  | some value => convert (some value)

theorem loadIp_eq : loadIp = loadField asString := rfl

theorem loadPort_eq : loadPort = loadField asInt := rfl

theorem loadField_eq_ok {α : Type} {convert : Option Node → Except Thrown α} {net : Node}
    {key : String} {old new : α} :
    loadField convert net key old = .ok new ↔
      net.isScalar = false ∧ Settles convert net key old new := by
  rw [loadField, bind_eq_ok]
  constructor
  · intro ⟨value?, got, next⟩
    obtain ⟨subscriptable, found⟩ := Node.get_text_eq_ok.mp got
    refine ⟨subscriptable, ?_⟩
    rw [Settles, found]
    cases value? with
    | none => exact (Except.ok.inj next).symm
    | some value => exact next
  · intro ⟨subscriptable, settles⟩
    refine ⟨net.find key, Node.get_text_eq_ok.mpr ⟨subscriptable, rfl⟩, ?_⟩
    rw [Settles] at settles
    cases found : net.find key with
    | none =>
        rw [found] at settles
        rw [settles]
        rfl
    | some value =>
        rw [found] at settles
        exact settles

theorem loadAddr_eq_ok {net : Node} {old new : NetAddr} :
    loadAddr net old = .ok new ↔ net.isScalar = false ∧ SettlesAddr net old new := by
  simp only [loadAddr, bind_eq_ok, loadIp_eq, loadPort_eq, loadField_eq_ok]
  constructor
  · rintro ⟨localIp, ⟨subscriptable, first⟩, remoteIp, ⟨-, second⟩, localPort, ⟨-, third⟩,
      remotePort, ⟨-, fourth⟩, result⟩
    obtain rfl := Except.ok.inj result
    exact ⟨subscriptable, first, second, third, fourth⟩
  · intro ⟨subscriptable, first, second, third, fourth⟩
    exact ⟨_, ⟨subscriptable, first⟩, _, ⟨subscriptable, second⟩, _, ⟨subscriptable, third⟩, _,
      ⟨subscriptable, fourth⟩, rfl⟩

/-! ### The outcomes of a load -/

/-- The loader returns, with this value and this state. -/
inductive Returns (config : Node) (this : BaseConfig) : Int32 → BaseConfig → Prop
  | noRole (subscriptable : config.isScalar = false) (absent : config.find "role" = none) :
      Returns config this (-1) this
  | noTools (role : Role) (saysRole : SaysRole config role)
      (absent : config.find "transfer_tool" = none) :
      Returns config this (-1) { this with role := role }
  | noNet (role : Role) (tools : Node) (conv : Int32) (saysRole : SaysRole config role)
      (foundTools : config.find "transfer_tool" = some tools) (converts : ToolsConvert tools)
      (saysConv : SaysConv config conv) (absent : config.find "net" = none) :
      Returns config this (-1)
        { this.enable (names tools) with role := role, kcpConv := conv }
  | loaded (role : Role) (tools : Node) (conv : Int32) (net : Node) (addr : NetAddr)
      (saysRole : SaysRole config role)
      (foundTools : config.find "transfer_tool" = some tools) (converts : ToolsConvert tools)
      (saysConv : SaysConv config conv) (foundNet : config.find "net" = some net)
      (subscriptable : net.isScalar = false) (settles : SettlesAddr net this.addr addr) :
      Returns config this 0
        { this.enable (names tools) with role := role, kcpConv := conv, addr := addr }

/-- The last section of the loader. -/
def loadNet (config : Node) (loaded : BaseConfig) : Except Thrown (Int32 × BaseConfig) := do
  match ← config.get (.text (ascii "net")) with
  | none => return (-1, loaded)
  | some net =>
      let addr ← loadAddr net loaded.addr
      return (0, { loaded with addr := addr })

/-- Where role, tools and conversation convert, the rest is up to `net`. -/
theorem fromYamlLoadConfig_of_loadNet {config tools : Node} {this : BaseConfig} {role : Role}
    {conv : Int32} {result : Int32 × BaseConfig} (saysRole : SaysRole config role)
    (foundTools : config.find "transfer_tool" = some tools) (converts : ToolsConvert tools)
    (saysConv : SaysConv config conv)
    (rest : loadNet config { this.enable (names tools) with role := role, kcpConv := conv } =
      .ok result) :
    fromYamlLoadConfig config this = .ok result := by
  obtain ⟨value, text, found, converted, rfl⟩ := saysRole
  have subscriptable := Node.isScalar_of_find found
  apply bind_eq_ok.mpr
  refine ⟨some value, Node.get_text_eq_ok.mpr ⟨subscriptable, found⟩, ?_⟩
  apply bind_eq_ok.mpr
  refine ⟨text, converted, ?_⟩
  apply bind_eq_ok.mpr
  refine ⟨some tools, Node.get_text_eq_ok.mpr ⟨subscriptable, foundTools⟩, ?_⟩
  apply bind_eq_ok.mpr
  refine ⟨_, loadTools_eq_ok.mpr ⟨converts, rfl⟩, ?_⟩
  apply bind_eq_ok.mpr
  exact ⟨conv, (loadConv_eq_ok subscriptable).mpr saysConv, rest⟩

theorem Returns.of_loads {config : Node} {this after : BaseConfig} {code : Int32}
    (loads : fromYamlLoadConfig config this = .ok (code, after)) :
    Returns config this code after := by
  obtain ⟨role?, gotRole, next⟩ := bind_eq_ok.mp loads
  obtain ⟨subscriptable, foundRole⟩ := Node.get_text_eq_ok.mp gotRole
  cases role? with
  | none =>
      obtain ⟨rfl, rfl⟩ := Prod.mk.inj (Except.ok.inj next)
      exact .noRole subscriptable foundRole
  | some role =>
      obtain ⟨text, converted, next⟩ := bind_eq_ok.mp next
      have saysRole : SaysRole config (roleOf text) := ⟨role, text, foundRole, converted, rfl⟩
      obtain ⟨tools?, gotTools, next⟩ := bind_eq_ok.mp next
      have foundTools := (Node.get_text_eq_ok.mp gotTools).2
      cases tools? with
      | none =>
          obtain ⟨rfl, rfl⟩ := Prod.mk.inj (Except.ok.inj next)
          exact .noTools (roleOf text) saysRole foundTools
      | some tools =>
          obtain ⟨enabled, loadedTools, next⟩ := bind_eq_ok.mp next
          obtain ⟨converts, rfl⟩ := loadTools_eq_ok.mp loadedTools
          obtain ⟨conv, loadedConv, next⟩ := bind_eq_ok.mp next
          have saysConv := (loadConv_eq_ok subscriptable).mp loadedConv
          obtain ⟨net?, gotNet, next⟩ := bind_eq_ok.mp next
          have foundNet := (Node.get_text_eq_ok.mp gotNet).2
          cases net? with
          | none =>
              obtain ⟨rfl, rfl⟩ := Prod.mk.inj (Except.ok.inj next)
              exact .noNet (roleOf text) tools conv saysRole foundTools converts saysConv foundNet
          | some net =>
              obtain ⟨addr, loadedAddr, next⟩ := bind_eq_ok.mp next
              obtain ⟨netSubscriptable, settles⟩ := loadAddr_eq_ok.mp loadedAddr
              obtain ⟨rfl, rfl⟩ := Prod.mk.inj (Except.ok.inj next)
              exact .loaded (roleOf text) tools conv net addr saysRole foundTools converts
                saysConv foundNet netSubscriptable settles

theorem Returns.loads {config : Node} {this after : BaseConfig} {code : Int32}
    (returns : Returns config this code after) :
    fromYamlLoadConfig config this = .ok (code, after) := by
  cases returns with
  | noRole subscriptable absent =>
      apply bind_eq_ok.mpr
      exact ⟨none, Node.get_text_eq_ok.mpr ⟨subscriptable, absent⟩, rfl⟩
  | noTools role saysRole absent =>
      obtain ⟨value, text, found, converted, rfl⟩ := saysRole
      have subscriptable := Node.isScalar_of_find found
      apply bind_eq_ok.mpr
      refine ⟨some value, Node.get_text_eq_ok.mpr ⟨subscriptable, found⟩, ?_⟩
      apply bind_eq_ok.mpr
      refine ⟨text, converted, ?_⟩
      apply bind_eq_ok.mpr
      exact ⟨none, Node.get_text_eq_ok.mpr ⟨subscriptable, absent⟩, rfl⟩
  | noNet role tools conv saysRole foundTools converts saysConv absent =>
      have subscriptable := Node.isScalar_of_find foundTools
      apply fromYamlLoadConfig_of_loadNet saysRole foundTools converts saysConv
      apply bind_eq_ok.mpr
      exact ⟨none, Node.get_text_eq_ok.mpr ⟨subscriptable, absent⟩, rfl⟩
  | loaded role tools conv net addr saysRole foundTools converts saysConv foundNet
      netSubscriptable settles =>
      have subscriptable := Node.isScalar_of_find foundTools
      apply fromYamlLoadConfig_of_loadNet saysRole foundTools converts saysConv
      apply bind_eq_ok.mpr
      refine ⟨some net, Node.get_text_eq_ok.mpr ⟨subscriptable, foundNet⟩, ?_⟩
      apply bind_eq_ok.mpr
      exact ⟨addr, loadAddr_eq_ok.mpr ⟨netSubscriptable, settles⟩, rfl⟩

/-- The outcomes are those of the loader; where there is none, it throws. -/
theorem fromYamlLoadConfig_eq_ok {config : Node} {this after : BaseConfig} {code : Int32} :
    fromYamlLoadConfig config this = .ok (code, after) ↔ Returns config this code after :=
  ⟨Returns.of_loads, Returns.loads⟩

end KcpTest.Config
