import KcpTest.Config.Loading

/-!
Contract: what a load leaves of the state before it.

Owns: which members two objects agree on after each loaded the same document,
and the exact condition under which a load that does not succeed is reported and
leaves the object as it was.
-/

set_option autoImplicit false

namespace KcpTest.Config

open KcpTest KcpTest.Message

/-! ### Two loads of one document -/

/-- The tool is in use. -/
def BaseConfig.Enabled (this : BaseConfig) (tool : TranTool) : Prop :=
  this.transferTool tool = some 1

/-- Both objects hold the same role, tools, conversation and addresses. -/
structure SameSettings (first second : BaseConfig) : Prop where
  role : first.role = second.role
  tools : ∀ tool, first.Enabled tool ↔ second.Enabled tool
  conv : first.kcpConv = second.kcpConv
  addr : first.addr = second.addr

/-- The document has the key in its section `net`. -/
def DefinesAddr (config : Node) (key : String) : Prop :=
  ∃ net value, config.find "net" = some net ∧ net.find key = some value

/-- The document names the tool in `transfer_tool`. -/
def NamesTool (config : Node) (tool : TranTool) : Prop :=
  ∃ tools, config.find "transfer_tool" = some tools ∧ names tools tool = true

/-- A member that two loads set to one value if the document defines it, and
leave as it was in each object if not. -/
structure SetOrKept {α : Type} (defined : Prop) (first second first' second' : α) : Prop where
  set : defined → first' = second'
  kept : ¬ defined → first' = first ∧ second' = second

/-- What two successful loads of one document have in common. -/
structure LoadedAlike (config : Node) (first second first' second' : BaseConfig) : Prop where
  role : first'.role = second'.role
  conv : first'.kcpConv = second'.kcpConv
  firstTools : ∀ tool, first'.Enabled tool ↔ NamesTool config tool ∨ first.Enabled tool
  secondTools : ∀ tool, second'.Enabled tool ↔ NamesTool config tool ∨ second.Enabled tool
  localIp : SetOrKept (DefinesAddr config "local_ip")
    first.addr.localIp second.addr.localIp first'.addr.localIp second'.addr.localIp
  remoteIp : SetOrKept (DefinesAddr config "remote_ip")
    first.addr.remoteIp second.addr.remoteIp first'.addr.remoteIp second'.addr.remoteIp
  localPort : SetOrKept (DefinesAddr config "local_port")
    first.addr.localPort second.addr.localPort first'.addr.localPort second'.addr.localPort
  remotePort : SetOrKept (DefinesAddr config "remote_port")
    first.addr.remotePort second.addr.remotePort first'.addr.remotePort second'.addr.remotePort

theorem SaysRole.unique {config : Node} {role other : Role} (first : SaysRole config role)
    (second : SaysRole config other) : role = other := by
  obtain ⟨value, text, found, converted, rfl⟩ := first
  obtain ⟨value', text', found', converted', rfl⟩ := second
  obtain rfl : value = value' := Option.some.inj (found.symm.trans found')
  obtain rfl : text = text' := Except.ok.inj (converted.symm.trans converted')
  rfl

theorem SaysConv.unique {config : Node} (subscriptable : config.isScalar = false)
    {conv other : Int32} (first : SaysConv config conv) (second : SaysConv config other) :
    conv = other := by
  have firstLoaded := (loadConv_eq_ok subscriptable).mpr first
  have secondLoaded := (loadConv_eq_ok subscriptable).mpr second
  exact Except.ok.inj (firstLoaded.symm.trans secondLoaded)

theorem enable_enabled_iff (this : BaseConfig) (named : TranTool → Bool) (tool : TranTool) :
    (this.enable named).Enabled tool ↔ named tool = true ∨ this.Enabled tool := by
  show (if named tool = true then some 1 else this.transferTool tool) = some 1 ↔ _
  by_cases isNamed : named tool = true
  · simp [isNamed]
  · simp [isNamed, BaseConfig.Enabled]

theorem Settles.setOrKept {α : Type} {convert : Option Node → Except Thrown α} {config net : Node}
    (found : config.find "net" = some net) {key : String} {first second first' second' : α}
    (firstSettles : Settles convert net key first first')
    (secondSettles : Settles convert net key second second') :
    SetOrKept (DefinesAddr config key) first second first' second' := by
  rw [Settles] at firstSettles secondSettles
  cases given : net.find key with
  | none =>
      rw [given] at firstSettles secondSettles
      refine { set := ?_, kept := fun _ => ⟨firstSettles, secondSettles⟩ }
      rintro ⟨net', value, found', given'⟩
      obtain rfl : net = net' := Option.some.inj (found.symm.trans found')
      rw [given] at given'
      exact absurd given' (by simp)
  | some value =>
      rw [given] at firstSettles secondSettles
      refine { set := ?_, kept := ?_ }
      · intro _
        exact Except.ok.inj (firstSettles.symm.trans secondSettles)
      · intro undefined'
        exact absurd ⟨net, value, found, given⟩ undefined'

/-- What a successful load does to each member. -/
theorem Returns.loadedMembers {config : Node} {this after : BaseConfig}
    (returns : Returns config this 0 after) :
    ∃ tools net, SaysRole config after.role ∧ SaysConv config after.kcpConv ∧
      config.find "transfer_tool" = some tools ∧
      (∀ tool, after.Enabled tool ↔ (this.enable (names tools)).Enabled tool) ∧
      config.find "net" = some net ∧ SettlesAddr net this.addr after.addr := by
  generalize success : (0 : Int32) = code at returns
  cases returns with
  | noRole => exact absurd success (by decide)
  | noTools => exact absurd success (by decide)
  | noNet => exact absurd success (by decide)
  | loaded role tools conv net addr saysRole foundTools converts saysConv foundNet subscriptable
      settles =>
      exact ⟨tools, net, saysRole, saysConv, foundTools, fun _ => Iff.rfl, foundNet, settles⟩

theorem namesTool_iff {config tools : Node} (found : config.find "transfer_tool" = some tools)
    (tool : TranTool) : NamesTool config tool ↔ names tools tool = true := by
  constructor
  · intro ⟨tools', found', named⟩
    obtain rfl : tools = tools' := Option.some.inj (found.symm.trans found')
    exact named
  · intro named
    exact ⟨tools, found, named⟩

/-- For every document and all states before: if both loads succeed, the objects
agree on the role, the conversation and the addresses the document defines, and
keep the other addresses; the tools in use are the named ones and the old ones. -/
theorem loaded_alike {config : Node} {first second first' second' : BaseConfig}
    (firstLoads : fromYamlLoadConfig config first = .ok (0, first'))
    (secondLoads : fromYamlLoadConfig config second = .ok (0, second')) :
    LoadedAlike config first second first' second' := by
  obtain ⟨tools, net, firstRole, firstConv, foundTools, firstTools, foundNet, firstAddr⟩ :=
    (fromYamlLoadConfig_eq_ok.mp firstLoads).loadedMembers
  obtain ⟨tools', net', secondRole, secondConv, foundTools', secondTools, foundNet', secondAddr⟩ :=
    (fromYamlLoadConfig_eq_ok.mp secondLoads).loadedMembers
  obtain rfl : tools = tools' := Option.some.inj (foundTools.symm.trans foundTools')
  obtain rfl : net = net' := Option.some.inj (foundNet.symm.trans foundNet')
  exact
    { role := firstRole.unique secondRole
      conv := firstConv.unique (Node.isScalar_of_find foundNet) secondConv
      firstTools := fun tool => by
        rw [firstTools, enable_enabled_iff, namesTool_iff foundTools]
      secondTools := fun tool => by
        rw [secondTools, enable_enabled_iff, namesTool_iff foundTools]
      localIp := firstAddr.localIp.setOrKept foundNet secondAddr.localIp
      remoteIp := firstAddr.remoteIp.setOrKept foundNet secondAddr.remoteIp
      localPort := firstAddr.localPort.setOrKept foundNet secondAddr.localPort
      remotePort := firstAddr.remotePort.setOrKept foundNet secondAddr.remotePort }

/-- A file for a server with an empty section `net`. -/
def sparseDocument : Node :=
  .map [(.scalar (ascii "role"), .scalar (ascii "server")),
    (.scalar (ascii "transfer_tool"), .sequence [.scalar (ascii "kcp")]),
    (.scalar (ascii "net"), .map [])]

/-- An object with nothing set but the port. -/
def bareConfig (localPort : Int32) : BaseConfig where
  addr := { localIp := [], remoteIp := [], localPort := localPort, remotePort := 0 }
  kcpConv := 0
  role := .invalid
  transferTool := fun _ => none

/-- What the load makes of it. -/
def sparseLoaded (localPort : Int32) : BaseConfig :=
  { (bareConfig localPort).setTool .kcp with kcpConv := 123456, role := .server }

theorem sparseDocument_loads (localPort : Int32) :
    fromYamlLoadConfig sparseDocument (bareConfig localPort) = .ok (0, sparseLoaded localPort) :=
  rfl

theorem loaded_alike_sparse :
    LoadedAlike sparseDocument (bareConfig 1) (bareConfig 2) (sparseLoaded 1) (sparseLoaded 2) :=
  loaded_alike (sparseDocument_loads 1) (sparseDocument_loads 2)

/-- Two objects keep two ports. -/
theorem not_same_settings :
    ¬ ∀ (config : Node) (first second first' second' : BaseConfig),
      fromYamlLoadConfig config first = .ok (0, first') →
      fromYamlLoadConfig config second = .ok (0, second') → SameSettings first' second' := by
  intro same
  have addr := (same sparseDocument (bareConfig 1) (bareConfig 2) _ _
    (sparseDocument_loads 1) (sparseDocument_loads 2)).addr
  have localPort : (1 : Int32) = 2 := congrArg NetAddr.localPort addr
  exact absurd localPort (by decide)

/-! ### A load that does not succeed -/

/-- The load returns `0`, or `-1` with the object as it was. It throws nothing. -/
def FailsCleanly (config : Node) (this : BaseConfig) : Prop :=
  ∃ code after, fromYamlLoadConfig config this = .ok (code, after) ∧
    (code = 0 ∨ code = -1 ∧ after = this)

/-- The value below the key converts, if there is one. -/
def FieldConverts {α : Type} (convert : Option Node → Except Thrown α) (net : Node)
    (key : String) : Prop :=
  ∀ value, net.find key = some value → ∃ new, convert (some value) = .ok new

/-- The documents that fail cleanly for an object: those without a role, those
that stop at a missing section and give the object nothing new before it, and
those in which everything converts. -/
inductive CleanInput (config : Node) (this : BaseConfig) : Prop
  | noRole (subscriptable : config.isScalar = false) (absent : config.find "role" = none)
  | noTools (sameRole : SaysRole config this.role) (absent : config.find "transfer_tool" = none)
  | noNet (tools : Node) (sameRole : SaysRole config this.role)
      (foundTools : config.find "transfer_tool" = some tools) (converts : ToolsConvert tools)
      (enabled : ∀ tool, names tools tool = true → this.Enabled tool)
      (sameConv : SaysConv config this.kcpConv) (absent : config.find "net" = none)
  | complete (role : Role) (tools : Node) (conv : Int32) (net : Node)
      (saysRole : SaysRole config role)
      (foundTools : config.find "transfer_tool" = some tools) (converts : ToolsConvert tools)
      (saysConv : SaysConv config conv) (foundNet : config.find "net" = some net)
      (subscriptable : net.isScalar = false)
      (localIp : FieldConverts asString net "local_ip")
      (remoteIp : FieldConverts asString net "remote_ip")
      (localPort : FieldConverts asInt net "local_port")
      (remotePort : FieldConverts asInt net "remote_port")

theorem exists_settles_iff {α : Type} {convert : Option Node → Except Thrown α} {net : Node}
    {key : String} {old : α} :
    (∃ new, Settles convert net key old new) ↔ FieldConverts convert net key := by
  unfold Settles FieldConverts
  cases net.find key with
  | none => simp
  | some value => simp

/-- Enabling tools that are in use changes nothing. -/
theorem enable_eq_self_iff (this : BaseConfig) (named : TranTool → Bool) :
    this.enable named = this ↔ ∀ tool, named tool = true → this.Enabled tool := by
  constructor
  · intro same tool isNamed
    rw [← same]
    exact (enable_enabled_iff this named tool).mpr (Or.inl isNamed)
  · intro enabled
    have tools : (this.enable named).transferTool = this.transferTool := by
      funext tool
      show (if named tool = true then some 1 else this.transferTool tool) = this.transferTool tool
      split
      · rename_i isNamed
        exact (enabled tool isNamed).symm
      · rfl
    show { this with transferTool := (this.enable named).transferTool } = this
    rw [tools]

theorem FailsCleanly.cleanInput {config : Node} {this : BaseConfig}
    (clean : FailsCleanly config this) : CleanInput config this := by
  obtain ⟨code, after, loads, outcome⟩ := clean
  cases fromYamlLoadConfig_eq_ok.mp loads with
  | noRole subscriptable absent => exact .noRole subscriptable absent
  | noTools role saysRole absent =>
      obtain ⟨-, same⟩ := outcome.resolve_left (by decide)
      have sameRole : role = this.role := congrArg BaseConfig.role same
      exact .noTools (sameRole ▸ saysRole) absent
  | noNet role tools conv saysRole foundTools converts saysConv absent =>
      obtain ⟨-, same⟩ := outcome.resolve_left (by decide)
      have sameRole : role = this.role := congrArg BaseConfig.role same
      have sameConv : conv = this.kcpConv := congrArg BaseConfig.kcpConv same
      have sameTools : (this.enable (names tools)).transferTool = this.transferTool :=
        (congrArg BaseConfig.transferTool same :)
      have enabled : ∀ tool, names tools tool = true → this.Enabled tool := by
        intro tool named
        rw [BaseConfig.Enabled, ← sameTools]
        exact (enable_enabled_iff this (names tools) tool).mpr (Or.inl named)
      exact .noNet tools (sameRole ▸ saysRole) foundTools converts enabled (sameConv ▸ saysConv)
        absent
  | loaded role tools conv net addr saysRole foundTools converts saysConv foundNet subscriptable
      settles =>
      exact .complete role tools conv net saysRole foundTools converts saysConv foundNet
        subscriptable (exists_settles_iff.mp ⟨_, settles.localIp⟩)
        (exists_settles_iff.mp ⟨_, settles.remoteIp⟩)
        (exists_settles_iff.mp ⟨_, settles.localPort⟩)
        (exists_settles_iff.mp ⟨_, settles.remotePort⟩)

theorem CleanInput.failsCleanly {config : Node} {this : BaseConfig}
    (input : CleanInput config this) : FailsCleanly config this := by
  cases input with
  | noRole subscriptable absent =>
      exact ⟨-1, this, fromYamlLoadConfig_eq_ok.mpr (.noRole subscriptable absent),
        Or.inr ⟨rfl, rfl⟩⟩
  | noTools sameRole absent =>
      exact ⟨-1, _, fromYamlLoadConfig_eq_ok.mpr (.noTools this.role sameRole absent),
        Or.inr ⟨rfl, rfl⟩⟩
  | noNet tools sameRole foundTools converts enabled sameConv absent =>
      refine ⟨-1, _, fromYamlLoadConfig_eq_ok.mpr
        (.noNet this.role tools this.kcpConv sameRole foundTools converts sameConv absent),
        Or.inr ⟨rfl, ?_⟩⟩
      rw [(enable_eq_self_iff this (names tools)).mpr enabled]
  | complete role tools conv net saysRole foundTools converts saysConv foundNet subscriptable
      localIp remoteIp localPort remotePort =>
      obtain ⟨localIp, localIpSettles⟩ := exists_settles_iff.mpr localIp
      obtain ⟨remoteIp, remoteIpSettles⟩ := exists_settles_iff.mpr remoteIp
      obtain ⟨localPort, localPortSettles⟩ := exists_settles_iff.mpr localPort
      obtain ⟨remotePort, remotePortSettles⟩ := exists_settles_iff.mpr remotePort
      refine ⟨0, _, fromYamlLoadConfig_eq_ok.mpr (.loaded role tools conv net
        { localIp, remoteIp, localPort, remotePort } saysRole foundTools converts saysConv foundNet
        subscriptable ?_), Or.inl rfl⟩
      exact
        { localIp := localIpSettles
          remoteIp := remoteIpSettles
          localPort := localPortSettles
          remotePort := remotePortSettles }

/-- For every document and every object, a load fails cleanly exactly when the
document has no role, or stops at a missing section with nothing new before it,
or converts as a whole. -/
theorem fails_cleanly_iff (config : Node) (this : BaseConfig) :
    FailsCleanly config this ↔ CleanInput config this :=
  ⟨FailsCleanly.cleanInput, CleanInput.failsCleanly⟩

/-- A file for a server with a port that is no number. -/
def misspelt : Node :=
  .map [(.scalar (ascii "role"), .scalar (ascii "server")),
    (.scalar (ascii "transfer_tool"), .sequence [.scalar (ascii "kcp")]),
    (.scalar (ascii "net"), .map [(.scalar (ascii "local_port"), .scalar (ascii "port"))])]

theorem not_fails_cleanly :
    ¬ ∀ (config : Node) (this : BaseConfig), FailsCleanly config this := by
  intro clean
  obtain ⟨code, after, loads, -⟩ := clean misspelt (bareConfig 0)
  have throws : fromYamlLoadConfig misspelt (bareConfig 0) = .error .badConversion := rfl
  rw [throws] at loads
  exact absurd loads (by simp)

end KcpTest.Config
