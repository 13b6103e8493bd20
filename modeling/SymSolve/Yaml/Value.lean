import SymSolve.Yaml.Node
import SymSolve.Yaml.Number

/-!
# Values

`Value.load` reads the value of a text. All nodes get a value, level by level from the root on,
and the first one that has none is the fault. Mappings under the key `<<` are merged into the
mapping that they stand in, behind its own keys.

The value is returned down to a given depth: nodes that contain themselves have no other bottom.
-/

namespace SymSolve.Yaml

/-- The value of a node. -/
inductive Value (α : Type) where
  | null
  | bool (b : Bool)
  | int (i : Int)
  | real (x : α)
  | text (s : String)
  | list (items : List (Value α))
  /-- Pairs whose keys are no texts are left out. -/
  | map (fields : List (String × Value α))
  /-- A date, bytes, a set, pairs, or what lies too deep. -/
  | other

/-- The value under a key; of several the last. -/
def Value.field? {α : Type} (fields : List (String × Value α)) (key : String) :
    Option (Value α) :=
  (fields.reverse.find? fun f => f.1 = key).map Prod.snd

/-! ## Scalars -/

/-- Whether a text is base-64, up to where its padding ends. Characters of no meaning count for
nothing. -/
def isBase64 : List Char → (position pads : Nat) → Bool
  | [], position, _ => position = 0
  | c :: cs, position, pads =>
    if c = '=' then
      if 2 ≤ position ∧ 4 ≤ position + pads + 1 then true
      else isBase64 cs position (if 2 ≤ position then pads + 1 else pads)
    else if c.isAlphanum || c = '+' || c = '/' then isBase64 cs ((position + 1) % 4) 0
    else isBase64 cs position pads

/-- The truth value that a word stands for. -/
def boolOf (s : String) : Except ValueFault Bool :=
  let word := String.ofList (s.toList.map Char.toLower)
  if ["yes", "true", "on"].contains word then .ok true
  else if ["no", "false", "off"].contains word then .ok false
  else .error .unknownWord

namespace Graph

/-- A node by its number. Numbers without a node do not occur. -/
def node (g : Graph) (id : Nat) : Node := g.getD id ⟨.unknown, .scalar ""⟩

/-- The text of a node: of a mapping, that of the value under the key `=`. -/
def textOf (g : Graph) : (fuel : Nat) → Nat → Except Fault String
  | 0, _ => .error (.value .endless)
  | fuel + 1, id =>
    match (g.node id).content with
    | .scalar text => .ok text
    | .list _ => .error .tag
    | .map pairs =>
      match pairs.find? fun p => (g.node p.1).kind = .value with
      | some (_, value) => textOf g fuel value
      | none => .error .tag

/-- The value of a node that is no collection. -/
def scalarOf {α : Type} [Scalar α] (g : Graph) (id : Nat) : Except Fault (Value α) := do
  let node := g.node id
  let text ← if node.kind = .unknown then throw .tag else g.textOf (g.size + 1) id
  match node.kind with
  | .null => return .null
  | .bool => ((boolOf text).map .bool).mapError .value
  | .int => ((intOf text).map .int).mapError .value
  | .real => ((realOf text).map .real).mapError .value
  | .text => return .text text
  | .binary =>
    if text.toList.all (fun c => c.toNat < 128) && isBase64 text.toList 0 0 then return .other
    else throw .tag
  | .timestamp =>
    match node.content with
    | .scalar text =>
      let cs := text.toList
      let cs := if cs.getLast? = some '\n' then cs.dropLast else cs
      match Timestamp.parse? cs with
      | none => throw (.value .notDate)
      | some t => if t.exists? then return .other else throw (.value .unreadable)
    | _ => throw (.value .collection)
  | _ => throw .tag

end Graph

/-- Kinds of nodes that hold others. -/
def Kind.isCollection : Kind → Bool
  | list | map | orderedMap | pairs | set => true
  | _ => false

/-! ## Loading -/

/-- Nodes on their way to values. -/
structure Loader where
  nodes : Graph
  /-- Nodes that were met. -/
  met : List Nat
  /-- Collections whose parts are still to be met. -/
  waiting : List Nat

/-- Steps of a loader. -/
abbrev LoaderM := StateT Loader (Except Fault)

namespace Loader

/-- A node by its number. -/
def node (id : Nat) : LoaderM Node := return (← get).nodes.node id

/-- Sets what a node consists of. -/
def fill (id : Nat) (content : Content) : LoaderM Unit :=
  modify fun s => { s with nodes := s.nodes.modify id fun n => { n with content } }

/-- The pairs of a mapping; none for other nodes. -/
def pairsOf (id : Nat) : LoaderM (Option (List (Nat × Nat))) := do
  match (← node id).content with
  | .map pairs => return some pairs
  | _ => return none

/-- The pairs of a mapping after a step that works on it. -/
def pairsAfter (step : Nat → LoaderM Unit) (id : Nat) : LoaderM (List (Nat × Nat)) := do
  if (← pairsOf id).isNone then throw .tag
  step id
  return (← pairsOf id).getD []

/-- The pairs that a merged value brings in; of a list the last mapping comes first. -/
def broughtIn (step : Nat → LoaderM Unit) (id : Nat) : LoaderM (List (Nat × Nat)) := do
  match (← node id).content with
  | .scalar _ => throw .tag
  | .map _ => pairsAfter step id
  | .list items => return (← items.mapM (pairsAfter step)).reverse.flatten

/-- Takes the merged mappings out of the pairs of a node that are left: returns the pairs they
bring in, and the pairs that stay. -/
def split (step : Nat → LoaderM Unit) (id : Nat) (stay : List (Nat × Nat)) :
    List (Nat × Nat) → LoaderM (List (Nat × Nat) × List (Nat × Nat))
  | [] => return ([], stay)
  | (key, value) :: rest => do
    match (← node key).kind with
    | .merge =>
      fill id (.map (stay ++ rest))
      let brought ← broughtIn step value
      let (more, stay) ← split step id stay rest
      return (brought ++ more, stay)
    | .value =>
      modify fun s => { s with nodes := s.nodes.modify key fun n => { n with kind := .text } }
      split step id (stay ++ [(key, value)]) rest
    | _ => split step id (stay ++ [(key, value)]) rest

/-- Merges mappings into a mapping. -/
def merge : (fuel : Nat) → Nat → LoaderM Unit
  | 0, _ => throw (.value .endless)
  | fuel + 1, id => do
    match ← pairsOf id with
    | none => pure ()
    | some pairs =>
      let (brought, stay) ← split (merge fuel) id [] pairs
      fill id (.map (brought ++ stay))

/-- Meets a node: a scalar must have a value, and the parts of a collection have to wait. -/
def meet (α : Type) [Scalar α] (id : Nat) : LoaderM Unit := do
  let s ← get
  if s.met.contains id then return
  if (s.nodes.node id).kind.isCollection then
    set { s with met := id :: s.met, waiting := s.waiting ++ [id] }
  else
    match s.nodes.scalarOf (α := α) id with
    | .error fault => throw fault
    | .ok _ => set { s with met := id :: s.met }

/-- Meets a key and its value. -/
def meetPair (α : Type) [Scalar α] (p : Nat × Nat) : LoaderM Unit := do
  meet α p.1
  meet α p.2

/-- Meets a key, which must be no collection, and its value. -/
def meetField (α : Type) [Scalar α] (p : Nat × Nat) : LoaderM Unit := do
  meet α p.1
  if (← node p.1).kind.isCollection then throw .key
  meet α p.2

/-- Meets the parts of a collection. -/
def meetParts (α : Type) [Scalar α] (id : Nat) : LoaderM Unit := do
  let n ← node id
  match n.kind, n.content with
  | .list, .list items => items.forM (meet α)
  | .map, .map _ | .set, .map _ =>
    merge ((← get).nodes.size + 1) id
    ((← pairsOf id).getD []).forM (meetField α)
  | .orderedMap, .list items | .pairs, .list items =>
    items.forM fun item => do
      match ← pairsOf item with
      | some [p] => meetPair α p
      | _ => throw .tag
  | _, _ => throw .tag

/-- Meets the parts of all collections that wait, in order. -/
def meetAll (α : Type) [Scalar α] : (fuel : Nat) → LoaderM Unit
  | 0 => pure ()
  | fuel + 1 => do
    let s ← get
    match s.waiting with
    | [] => pure ()
    | id :: waiting =>
      set { s with waiting }
      meetParts α id
      meetAll α fuel

end Loader

/-! ## Values of whole texts -/

namespace Graph

variable {α : Type} [Scalar α]

/-- The value of a node, down to a depth, once all nodes have values. -/
def valueOf (g : Graph) : (depth : Nat) → Nat → Value α
  | 0, _ => .other
  | depth + 1, id =>
    let node := g.node id
    match node.kind, node.content with
    | .list, .list items => .list (items.map (valueOf g depth))
    | .map, .map pairs =>
      .map (pairs.filterMap fun (key, value) =>
        match g.scalarOf (α := α) key with
        | .ok (.text key) => some (key, valueOf g depth value)
        | _ => none)
    | _, _ => match g.scalarOf id with
      | .ok v => v
      | .error _ => .other

end Graph

namespace Value

variable {α : Type} [Scalar α]

/-- The value of a text, down to a depth. A text without a document is null. -/
def load (depth : Nat) (text : List Char) : Except Fault (Value α) := do
  if text.any fun c => !isPrintable c then throw .character
  let (tokens, fault) := Token.scan text
  let (nodes, root) ← Graph.ofTokens tokens fault
  match root with
  | none => return .null
  | some root =>
    let load : LoaderM Unit := do
      Loader.meet α root
      Loader.meetAll α (nodes.size + 1)
    let ((), s) ← load.run ⟨nodes, [], []⟩
    return s.nodes.valueOf depth root

end Value

end SymSolve.Yaml
