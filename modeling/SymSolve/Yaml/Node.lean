import SymSolve.Yaml.Kind
import SymSolve.Yaml.Token

/-!
# Nodes

The tokens of a document make up nodes. An alias stands for the node that its anchor is at, which
may be a node around the alias itself, so nodes refer to each other by number. `Graph.ofTokens`
reads the one document of a text.
-/

namespace SymSolve.Yaml

/-- What a node consists of; parts of it are given by number. -/
inductive Content where
  | scalar (text : String)
  | list (items : List Nat)
  | map (pairs : List (Nat × Nat))
  deriving DecidableEq, Repr

/-- A node. -/
structure Node where
  kind : Kind
  content : Content
  deriving DecidableEq, Repr

/-- The nodes of a document, by number. -/
abbrev Graph := Array Node

/-- A document on its way from tokens to nodes. -/
structure Composer where
  tokens : List Token
  /-- What is wrong after the last token. -/
  fault : Option Fault
  nodes : Graph
  anchors : List (String × Nat)
  handles : List (String × String)

/-- Steps of a composer. -/
abbrev ComposerM := StateT Composer (Except Fault)

namespace Composer

/-- The handles that every document has. -/
def usualHandles : List (String × String) := [("!", "!"), ("!!", Kind.tagStart)]

/-- The next token; none at the end of the text. -/
def peek : ComposerM (Option Token) := do
  let s ← get
  match s.tokens, s.fault with
  | t :: _, _ => return some t
  | [], none => return none
  | [], some fault => throw fault

/-- Goes on to the token after the next. -/
def drop : ComposerM Unit := modify fun s => { s with tokens := s.tokens.tail }

/-- Whether the next token is one of several; the end of the text is none. -/
def atAny (ts : List Token) : ComposerM Bool := return (← peek).any ts.contains

/-- Adds a node. -/
def add (anchor : Option String) (node : Node) : ComposerM Nat := do
  let s ← get
  let id := s.nodes.size
  let anchors := match anchor with
    | some name => (name, id) :: s.anchors
    | none => s.anchors
  set { s with nodes := s.nodes.push node, anchors }
  return id

/-- Sets what a node consists of. -/
def fill (id : Nat) (content : Content) : ComposerM Unit :=
  modify fun s => { s with nodes := s.nodes.modify id fun n => { n with content } }

/-- An empty scalar. -/
def addEmpty : ComposerM Nat := add none ⟨.null, .scalar ""⟩

/-- What stands before a node. -/
structure Properties where
  anchor : Option String
  tag : Option TagName

/-- Reads an anchor and a tag, in either order. -/
def properties : ComposerM Properties := do
  match ← peek with
  | some (.anchor name) =>
    drop
    match ← peek with
    | some (.tag tag) => do drop; return ⟨some name, some tag⟩
    | _ => return ⟨some name, none⟩
  | some (.tag tag) =>
    drop
    match ← peek with
    | some (.anchor name) => do drop; return ⟨some name, some tag⟩
    | _ => return ⟨none, some tag⟩
  | _ => return ⟨none, none⟩

/-- The tag that is written, in full. -/
def fullTag (tag : TagName) : ComposerM String := do
  match tag.handle with
  | none => return tag.suffix
  | some handle =>
    match (← get).handles.find? fun h => h.1 = handle with
    | some (_, replacement) => return replacement ++ tag.suffix
    | none => throw .tag

/-- The kind of a node with a full tag; a lone mark leaves the kind to the node. -/
def kindOf (tag : Option String) (untagged : Kind) : Kind :=
  match tag with
  | none => untagged
  | some tag => if tag = "!" then untagged else .ofTag tag

mutual

/-- Reads a node. Nodes of a block may be blocks; after a key even a list without indentation of
its own. -/
def node : (fuel : Nat) → (inBlock afterKey : Bool) → ComposerM Nat
  | 0, _, _ => throw .arrangement
  | fuel + 1, inBlock, afterKey => do
    match ← peek with
    | some (.alias name) =>
      drop
      match (← get).anchors.find? fun a => a.1 = name with
      | some (_, id) => return id
      | none => throw .reference
    | _ =>
      let p ← properties
      let tag ← p.tag.mapM fullTag
      let anchors := (← get).anchors
      if p.anchor.any fun name => anchors.any fun a => a.1 = name then throw .reference
      match ← peek with
      | some (.scalar text plain) =>
        drop
        let untagged := if plain || tag.isSome then Kind.ofPlain text else .text
        add p.anchor ⟨kindOf tag untagged, .scalar text⟩
      | some .openList =>
        drop
        let id ← add p.anchor ⟨kindOf tag .list, .list []⟩
        fill id (.list (← flowItems fuel true))
        return id
      | some .openMap =>
        drop
        let id ← add p.anchor ⟨kindOf tag .map, .map []⟩
        fill id (.map (← flowPairs fuel true))
        return id
      | some .entry =>
        if afterKey then
          let id ← add p.anchor ⟨kindOf tag .list, .list []⟩
          fill id (.list (← looseItems fuel))
          return id
        else blank p.anchor tag
      | some .blockSequence =>
        if inBlock then
          drop
          let id ← add p.anchor ⟨kindOf tag .list, .list []⟩
          fill id (.list (← blockItems fuel))
          return id
        else blank p.anchor tag
      | some .blockMapping =>
        if inBlock then
          drop
          let id ← add p.anchor ⟨kindOf tag .map, .map []⟩
          fill id (.map (← blockPairs fuel))
          return id
        else blank p.anchor tag
      | _ => blank p.anchor tag
where
  /-- A node that is nothing but an anchor or a tag. -/
  blank (anchor : Option String) (tag : Option String) : ComposerM Nat :=
    if anchor.isNone && tag.isNone then throw .arrangement
    else add anchor ⟨kindOf tag .null, .scalar ""⟩

/-- A node, or an empty scalar if one of some tokens comes next. -/
def nodeUnless : (fuel : Nat) → (inBlock afterKey : Bool) → List Token → ComposerM Nat
  | 0, _, _, _ => throw .arrangement
  | fuel + 1, inBlock, afterKey, ends => do
    if ← atAny ends then addEmpty else node fuel inBlock afterKey

/-- The entries of an indented list. -/
def blockItems : (fuel : Nat) → ComposerM (List Nat)
  | 0 => throw .arrangement
  | fuel + 1 => do
    match ← peek with
    | some .entry =>
      drop
      let item ← nodeUnless fuel true false [.entry, .blockEnd]
      return item :: (← blockItems fuel)
    | some .blockEnd => do drop; return []
    | _ => throw .arrangement

/-- The entries of a list that is indented as the mapping around it. -/
def looseItems : (fuel : Nat) → ComposerM (List Nat)
  | 0 => throw .arrangement
  | fuel + 1 => do
    if ← atAny [.entry] then
      drop
      let item ← nodeUnless fuel true false [.entry, .key, .value, .blockEnd]
      return item :: (← looseItems fuel)
    else return []

/-- The pairs of an indented mapping. -/
def blockPairs : (fuel : Nat) → ComposerM (List (Nat × Nat))
  | 0 => throw .arrangement
  | fuel + 1 => do
    match ← peek with
    | some .key =>
      drop
      let key ← nodeUnless fuel true true [.key, .value, .blockEnd]
      let value ← valueUnless fuel true [.key, .value, .blockEnd]
      return (key, value) :: (← blockPairs fuel)
    | some .blockEnd => do drop; return []
    | _ => throw .arrangement

/-- The value after a key, if there is one. -/
def valueUnless : (fuel : Nat) → (inBlock : Bool) → List Token → ComposerM Nat
  | 0, _, _ => throw .arrangement
  | fuel + 1, inBlock, ends => do
    if ← atAny [.value] then
      drop
      nodeUnless fuel inBlock inBlock ends
    else addEmpty

/-- The items of a list in brackets. An item with a colon is a mapping of one pair. -/
def flowItems : (fuel : Nat) → (isFirst : Bool) → ComposerM (List Nat)
  | 0, _ => throw .arrangement
  | fuel + 1, isFirst => do
    if ← atAny [.closeList] then
      drop
      return []
    else
      if !isFirst then
        if ← atAny [.comma] then drop else throw .arrangement
      match ← peek with
      | some .closeList => do drop; return []
      | some .key =>
        drop
        let id ← add none ⟨.map, .map []⟩
        let key ← nodeUnless fuel false false [.value, .comma, .closeList]
        let value ← valueUnless fuel false [.comma, .closeList]
        fill id (.map [(key, value)])
        return id :: (← flowItems fuel false)
      | _ =>
        let item ← node fuel false false
        return item :: (← flowItems fuel false)

/-- The pairs of a mapping in brackets. An item without a colon is a key. -/
def flowPairs : (fuel : Nat) → (isFirst : Bool) → ComposerM (List (Nat × Nat))
  | 0, _ => throw .arrangement
  | fuel + 1, isFirst => do
    if ← atAny [.closeMap] then
      drop
      return []
    else
      if !isFirst then
        if ← atAny [.comma] then drop else throw .arrangement
      match ← peek with
      | some .closeMap => do drop; return []
      | some .key =>
        drop
        let key ← nodeUnless fuel false false [.value, .comma, .closeMap]
        let value ← valueUnless fuel false [.comma, .closeMap]
        return (key, value) :: (← flowPairs fuel false)
      | _ =>
        let key ← node fuel false false
        let value ← addEmpty
        return (key, value) :: (← flowPairs fuel false)

end

/-! ## Documents -/

/-- Reads the directives before a document. -/
def directives : (fuel : Nat) → (versioned : Bool) → ComposerM Unit
  | 0, _ => pure ()
  | fuel + 1, versioned => do
    match ← peek with
    | some (.directive (.version major)) =>
      drop
      if versioned || major ≠ 1 then throw .arrangement
      directives fuel true
    | some (.directive (.handle name replacement)) =>
      drop
      let s ← get
      if s.handles.any fun h => h.1 = name then throw .arrangement
      set { s with handles := (name, replacement) :: s.handles }
      directives fuel versioned
    | some (.directive .unknown) =>
      drop
      directives fuel versioned
    | _ => pure ()

/-- Goes past marks of the end of a document. -/
def pastEnds : (fuel : Nat) → ComposerM Unit
  | 0 => pure ()
  | fuel + 1 => do
    if ← atAny [.documentEnd] then
      drop
      pastEnds fuel

/-- Reads the one document of a text, and returns its root; none if there is no document. -/
def document : ComposerM (Option Nat) := do
  let count := (← get).tokens.length
  let fuel := 4 * count + 4
  match ← peek with
  | none => return none
  | some t =>
    let isExplicit := match t with
      | .directive _ | .documentStart => true
      | _ => false
    if isExplicit then
      directives count false
      if ← atAny [.documentStart] then drop else throw .arrangement
    modify fun s => { s with handles := s.handles ++ usualHandles }
    let isBlank ← match ← peek with
      | none | some .documentStart | some .documentEnd | some (.directive _) => pure isExplicit
      | _ => pure false
    let root ← if isBlank then addEmpty else node fuel true false
    pastEnds count
    match ← peek with
    | none => return some root
    | some _ => throw .documents

end Composer

/-- The nodes of the one document of a text and the number of its root, if there is one. -/
def Graph.ofTokens (tokens : List Token) (fault : Option Fault) :
    Except Fault (Graph × Option Nat) :=
  (Composer.document.run ⟨tokens, fault, #[], [], []⟩).map fun (root, s) => (s.nodes, root)

end SymSolve.Yaml
