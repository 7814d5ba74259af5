import KcpTest.Message.Text

/-!
Contract: the part of yaml-cpp that the configuration uses.

Owns: the tree of a document, subscripts with keys of two types, the conversions
to strings and to `int`, and assignment below a key.

An undefined node is `none`. Reading through a subscript inserts undefined nodes,
which no later reading can tell from absent ones.
-/

set_option autoImplicit false

namespace KcpTest.Config

open KcpTest KcpTest.Message

inductive Node where
  | null
  | scalar (text : Message.Bytes)
  | sequence (items : List Node)
  | map (entries : List (Node × Node))

/-- What yaml-cpp throws at a subscript of a scalar, at a failed conversion and
at the conversion of an undefined node. -/
inductive Thrown where
  | badSubscript
  | badConversion
  | invalidNode
  deriving DecidableEq

/-! ### Conversions -/

/-- The value of a digit in any base up to sixteen; sixteen for other
characters. -/
def digitValue (c : UInt8) : Nat :=
  if 48 ≤ c && c ≤ 57 then c.toNat - 48
  else if 97 ≤ c && c ≤ 102 then c.toNat - 87
  else if 65 ≤ c && c ≤ 70 then c.toNat - 55
  else 16

/-- The base the prefix of a numeral selects, whether a digit must follow, and
the text behind the prefix. -/
def readBase : Message.Bytes → Nat × Bool × Message.Bytes
  | 48 :: 120 :: rest => (16, true, rest)
  | 48 :: 88 :: rest => (16, true, rest)
  | 48 :: rest => (8, false, rest)
  | rest => (10, true, rest)

/-- `convert<int>::decode` on the text of a scalar: a stream without a fixed base
reads an `int`, and only spaces may follow. -/
def decodeInt (text : Message.Bytes) : Option Int32 :=
  let (negative, text) := readSign text
  let (base, required, text) := readBase text
  let digits := text.takeWhile fun c => digitValue c < base
  let rest := text.dropWhile fun c => digitValue c < base
  let magnitude := digits.foldl (fun value c => value * base + digitValue c) 0
  let result : Int := if negative then -magnitude else magnitude
  if required && digits.isEmpty then none
  else if result < -2 ^ 31 ∨ 2 ^ 31 ≤ result then none
  else if rest.all isSpace then some (Int32.ofInt result)
  else none

/-- `as<std::string>()` -/
def asString : Option Node → Except Thrown Message.Bytes
  | none => .error .invalidNode
  | some .null => .ok (ascii "null")
  | some (.scalar text) => .ok text
  | some (.sequence _) => .error .badConversion
  | some (.map _) => .error .badConversion

/-- `as<int>()` -/
def asInt : Option Node → Except Thrown Int32
  | some (.scalar text) =>
      match decodeInt text with
      | some n => .ok n
      | none => .error .badConversion
  | _ => .error .badConversion

/-- `size()` -/
def Node.size : Node → Nat
  | .sequence items => items.length
  | .map entries => entries.length
  | _ => 0

/-! ### Subscripts -/

/-- The argument of a subscript, a string or an `int`. -/
inductive Key where
  | text (word : Message.Bytes)
  | int (n : Int32)
  deriving DecidableEq

/-- The node a key is inserted as. -/
def Key.node : Key → Node
  | .text word => .scalar word
  | .int n => .scalar (printInt n)

/-- `node::equals`: the key of an entry, converted to the type of the subscript. -/
def Key.equals : Key → Node → Bool
  | .text word, .scalar written => written == word
  | .int n, .scalar written => decodeInt written == some n
  | _, _ => false

def Node.get (node : Node) (key : Key) : Except Thrown (Option Node) :=
  match node with
  | .null => .ok none
  | .scalar _ => .error .badSubscript
  | .sequence items =>
      match key with
      | .text _ => .ok none
      | .int n => .ok (if 0 ≤ n then items[n.toNatClampNeg]? else none)
  | .map entries => .ok ((entries.find? fun entry => key.equals entry.1).map Prod.snd)

/-- The entries of a node that a subscript makes a map. -/
def entriesOf : Option Node → List (Node × Node)
  | some (.map entries) => entries
  | _ => []

/-- The entries after the value below a key was replaced, or inserted behind the
others. -/
def updateEntry (key : Key) (change : Option Node → Node) :
    List (Node × Node) → List (Node × Node)
  | [] => [(key.node, change none)]
  | entry :: entries =>
      if key.equals entry.1 then (entry.1, change (some entry.2)) :: entries
      else entry :: updateEntry key change entries

/-- `node[key]… = value`, where each node on the path is undefined, null or a
map. -/
def assign (path : List Key) (value : Node) (node : Option Node) : Node :=
  match path with
  | [] => value
  | key :: path => .map (updateEntry key (assign path value) (entriesOf node))

/-! ### Keys that are not assigned -/

/-- No entry of a map answers to the key. -/
def Lacks (key : Key) (node : Node) : Prop :=
  ∃ entries, node = .map entries ∧ ∀ entry ∈ entries, key.equals entry.1 = false

theorem Lacks.get {key : Key} {node : Node} (lacks : Lacks key node) :
    node.get key = .ok none := by
  obtain ⟨entries, rfl, none'⟩ := lacks
  simpa [Node.get] using none'

/-- An update keeps the keys and adds at most its own. -/
theorem key_of_mem_updateEntry {key : Key} {change : Option Node → Node}
    {entries : List (Node × Node)} {entry : Node × Node}
    (member : entry ∈ updateEntry key change entries) :
    entry.1 = key.node ∨ ∃ old ∈ entries, entry.1 = old.1 := by
  induction entries with
  | nil => exact Or.inl (congrArg Prod.fst (List.mem_singleton.mp member))
  | cons first rest inductionHypothesis =>
      unfold updateEntry at member
      split at member
      · rcases List.mem_cons.mp member with rfl | later
        · exact Or.inr ⟨first, List.mem_cons_self, rfl⟩
        · exact Or.inr ⟨entry, List.mem_cons_of_mem _ later, rfl⟩
      · rcases List.mem_cons.mp member with rfl | later
        · exact Or.inr ⟨entry, List.mem_cons_self, rfl⟩
        · rcases inductionHypothesis later with new | ⟨old, inRest, same⟩
          · exact Or.inl new
          · exact Or.inr ⟨old, List.mem_cons_of_mem _ inRest, same⟩

theorem Lacks.assign_null {key other : Key} (differs : key.equals other.node = false)
    (path : List Key) (value : Node) : Lacks key (assign (other :: path) value (some .null)) :=
  ⟨_, rfl, by simpa [entriesOf, updateEntry] using differs⟩

/-- Assigning below one key leaves another one absent. -/
theorem Lacks.assign {key other : Key} {node : Node} (lacks : Lacks key node)
    (differs : key.equals other.node = false) (path : List Key) (value : Node) :
    Lacks key (Config.assign (other :: path) value (some node)) := by
  obtain ⟨entries, rfl, none'⟩ := lacks
  refine ⟨_, rfl, fun entry member => ?_⟩
  rcases key_of_mem_updateEntry member with new | ⟨old, inEntries, same⟩
  · rw [new]
    exact differs
  · rw [same]
    exact none' old inEntries

end KcpTest.Config
