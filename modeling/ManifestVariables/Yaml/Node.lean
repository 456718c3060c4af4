import ManifestVariables.Keyed
import ManifestVariables.Yaml.Layout

/-!
# YAML nodes

`Node.parse?` reads a text that holds one document. An alias is first kept as the
number of its anchor and then replaced by the node that the anchor stands at, as
long as the result does not nest too deeply or grow out of proportion.
-/

namespace ManifestVariables.Yaml

/-- A node of a document. -/
inductive Node where
  | scalar (tag : Option String) (style : ScalarStyle) (text : String)
  | sequence (tag : Option String) (items : List Node)
  | mapping (tag : Option String) (entries : List (Node × Node))
  /-- The node at another place of the document. -/
  | reference (anchor : Nat)
deriving Inhabited

namespace Node

/-- A node where nothing is written. -/
def empty : Node := scalar none .plain ""

/-- How far a document has been read. -/
structure Reading where
  tokens : List Token
  /-- What the handles of tags stand for. -/
  handles : Keyed String String
  /-- The numbers of the anchors. -/
  anchors : Keyed String Nat
  /-- The nodes at the anchors. -/
  nodes : Keyed Nat Node

/-- A part of reading a document, which fails where the document is malformed. -/
abbrev Read := StateT Reading Option

/-- The next token. -/
def peek : Read (Option Token) := do
  return (← get).tokens.head?

/-- Moves behind the next token. -/
def advance : Read Unit :=
  modify fun r => { r with tokens := r.tokens.drop 1 }

/-- Whether the next token is one of those given; there may be no next one. -/
def nextIn (tokens : List Token) : Read Bool := do
  match ← peek with
  | some token => return tokens.contains token
  | none => return false

/-- Moves behind a token if it is the next one. -/
def accept (token : Token) : Read Bool := do
  let found ← nextIn [token]
  if found then advance
  return found

/-- The anchor and the tag of a node. -/
structure Properties where
  anchor : Option String
  tag : Option String

/-- What the handles of tags stand for in every document. -/
def standardHandles : Keyed String String :=
  [("!", "!"), ("!!", "tag:yaml.org,2002:")]

/-- The tag that a handle and a suffix write. -/
def fullTag (handle suffix : String) : Read String := do
  if handle.isEmpty then return suffix
  else
    match Keyed.get? (← get).handles handle with
    | some base => return base ++ suffix
    | none => failure

/-- Reads an anchor and a tag, each of which may be missing, in either order. -/
def properties : Read Properties := do
  match ← peek with
  | some (.anchor name) =>
    advance
    match ← peek with
    | some (.tag handle suffix) =>
      advance
      return ⟨some name, some (← fullTag handle suffix)⟩
    | _ => return ⟨some name, none⟩
  | some (.tag handle suffix) =>
    advance
    let tag ← fullTag handle suffix
    match ← peek with
    | some (.anchor name) =>
      advance
      return ⟨some name, some tag⟩
    | _ => return ⟨none, some tag⟩
  | _ => return ⟨none, none⟩

/-- Numbers an anchor by how many names are known. -/
def beginAnchor (name : Option String) : Read (Option Nat) := do
  match name with
  | none => return none
  | some name =>
    let number := (← get).anchors.length
    modify fun r => { r with anchors := Keyed.put r.anchors name number }
    return some number

/-- Takes note of the node at an anchor. -/
def endAnchor (anchor : Option Nat) (node : Node) : Read Node := do
  match anchor with
  | none => return node
  | some number =>
    modify fun r => { r with nodes := Keyed.put r.nodes number node }
    return node

/-- The tag of a scalar that is written: the mark without a name is no tag. -/
def scalarTag (tag : Option String) : Option String :=
  tag.filter fun name => name ≠ "!"

mutual

/-- Reads a node. A block collection may stand here only where `block` says so, and
items without indentation of their own only where `indentless` does. -/
def node (block indentless : Bool) : (fuel : Nat) → Read Node
  | 0 => failure
  | fuel + 1 => do
    match ← peek with
    | some (.reference name) =>
      advance
      match Keyed.get? (← get).anchors name with
      | some number => return reference number
      | none => failure
    | _ =>
      let props ← properties
      let anchor ← beginAnchor props.anchor
      let content ← match ← peek with
        | some .blockEntry =>
          if indentless then sequence props.tag <$> indentlessItems fuel
          else empty? props
        | some (.scalar style text) =>
          advance
          pure (scalar (scalarTag props.tag) style text)
        | some .flowSequenceStart =>
          advance
          sequence props.tag <$> flowItems true fuel
        | some .flowMappingStart =>
          advance
          mapping props.tag <$> flowEntries true fuel
        | some .blockSequenceStart =>
          if block then
            advance
            sequence props.tag <$> blockItems fuel
          else empty? props
        | some .blockMappingStart =>
          if block then
            advance
            mapping props.tag <$> blockEntries fuel
          else empty? props
        | _ => empty? props
      endAnchor anchor content

/-- A node of properties only, which must have one. -/
def empty? (props : Properties) : Read Node :=
  if props.anchor.isNone && props.tag.isNone then failure
  else pure (scalar props.tag .plain "")

/-- Reads a node unless one of the given tokens, or the end, is next. -/
def nodeBefore (stops : List Token) (block indentless : Bool) : (fuel : Nat) → Read Node
  | 0 => failure
  | fuel + 1 => do
    if ← nextIn stops then return empty
    node block indentless fuel

/-- Reads the items of a block sequence up to its end. -/
def blockItems : (fuel : Nat) → Read (List Node)
  | 0 => failure
  | fuel + 1 => do
    if ← accept .blockEntry then
      let item ← nodeBefore [.blockEntry, .blockEnd] true false fuel
      return item :: (← blockItems fuel)
    else if ← accept .blockEnd then return []
    else failure

/-- Reads items that are not indented further than their key. -/
def indentlessItems : (fuel : Nat) → Read (List Node)
  | 0 => failure
  | fuel + 1 => do
    if ← accept .blockEntry then
      let item ← nodeBefore [.blockEntry, .key, .value, .blockEnd] true false fuel
      return item :: (← indentlessItems fuel)
    else return []

/-- Reads the entries of a block mapping up to its end. -/
def blockEntries : (fuel : Nat) → Read (List (Node × Node))
  | 0 => failure
  | fuel + 1 => do
    if ← accept .key then
      let key ← nodeBefore [.key, .value, .blockEnd] true true fuel
      let value ← if ← accept .value then nodeBefore [.key, .value, .blockEnd] true true fuel
        else pure empty
      return (key, value) :: (← blockEntries fuel)
    else if ← accept .blockEnd then return []
    else failure

/-- Reads the value of an entry in brackets. -/
def flowValue (stops : List Token) : (fuel : Nat) → Read Node
  | 0 => failure
  | fuel + 1 => do
    if ← accept .value then nodeBefore stops false false fuel else return empty

/-- Reads the items of a sequence in brackets up to its end. A single entry of a
mapping may stand as an item. -/
def flowItems (first : Bool) : (fuel : Nat) → Read (List Node)
  | 0 => failure
  | fuel + 1 => do
    if ← accept .flowSequenceEnd then return []
    if !first then
      if !(← accept .flowEntry) then failure
    if ← accept .flowSequenceEnd then return []
    let item ←
      if ← accept .key then do
        let key ← nodeBefore [.value, .flowEntry, .flowSequenceEnd] false false fuel
        let value ← flowValue [.flowEntry, .flowSequenceEnd] fuel
        pure (mapping none [(key, value)])
      else node false false fuel
    return item :: (← flowItems false fuel)

/-- Reads the entries of a mapping in brackets up to its end. A key may stand without
a value. -/
def flowEntries (first : Bool) : (fuel : Nat) → Read (List (Node × Node))
  | 0 => failure
  | fuel + 1 => do
    if ← accept .flowMappingEnd then return []
    if !first then
      if !(← accept .flowEntry) then failure
    if ← accept .flowMappingEnd then return []
    let entry ←
      if ← accept .key then do
        let key ← nodeBefore [.value, .flowEntry, .flowMappingEnd] false false fuel
        let value ← flowValue [.flowEntry, .flowMappingEnd] fuel
        pure (key, value)
      else do
        let key ← node false false fuel
        pure (key, empty)
    return entry :: (← flowEntries false fuel)

end

/-- The handles with those that directives declare; none may be declared twice, and
a version must be 1.1 or 1.2. -/
def directives : List Token → (versioned : Bool) → (handles : Keyed String String) →
    Option (Keyed String String × List Token)
  | .versionDirective major minor :: rest, versioned, handles =>
    if versioned || major ≠ 1 || !(minor = 1 || minor = 2) then none
    else directives rest true handles
  | .tagDirective handle base :: rest, versioned, handles =>
    if Keyed.contains handles handle then none
    else directives rest versioned (handles ++ [(handle, base)])
  | rest, _, handles => some (handles, rest)

/-- Whether a token can only stand outside documents. -/
def isOutside : Token → Bool
  | .versionDirective _ _ | .tagDirective _ _ | .documentStart | .documentEnd => true
  | _ => false

/-- Reads the only document: its node, what the anchors stand at, and the tokens
behind it. -/
def document (tokens : List Token) : Option (Node × Keyed Nat Node × List Token) := do
  let (handles, rest) ← directives tokens false []
  let explicit := rest.head? = some .documentStart
  if !explicit && rest.length ≠ tokens.length then none
  let content := if explicit then rest.drop 1 else rest
  let reading : Reading := ⟨content, handles ++ standardHandles, [], []⟩
  let absent := match content with
    | token :: _ => explicit && isOutside token
    | [] => true
  if absent then return (empty, [], content)
  let (root, last) ← (node true false (8 * content.length + 8)).run reading
  return (root, last.nodes, last.tokens)

mutual

/-- How many steps it takes to write a node: one for a scalar, two for the ends of a
collection. -/
def steps : Node → Nat
  | sequence _ items => 2 + stepsOfItems items
  | mapping _ entries => 2 + stepsOfEntries entries
  | _ => 1

/-- The steps of all items. -/
def stepsOfItems : List Node → Nat
  | [] => 0
  | item :: rest => item.steps + stepsOfItems rest

/-- The steps of all entries. -/
def stepsOfEntries : List (Node × Node) → Nat
  | [] => 0
  | (key, value) :: rest => key.steps + value.steps + stepsOfEntries rest

end

/-- Collections may be nested this deeply. -/
def maxDepth : Nat := 128

/-- The node that an alias stands for; using one up costs one of the aliases that
are left. -/
def target (nodes : Keyed Nat Node) (node : Node) : StateT Nat Option Node := do
  match node with
  | reference number =>
    match ← get, Keyed.get? nodes number with
    | left + 1, some found =>
      set left
      return found
    | _, _ => failure
  | other => return other

/-- The node with every alias replaced, nested at most `depth` deep. -/
def expand (nodes : Keyed Nat Node) : (depth : Nat) → Node → StateT Nat Option Node
  | 0, node => do
    match ← target nodes node with
    | scalar tag style text => return scalar tag style text
    | _ => failure
  | depth + 1, node => do
    match ← target nodes node with
    | sequence tag items => return sequence tag (← items.mapM (expand nodes depth))
    | mapping tag entries =>
      return mapping tag (← entries.mapM fun entry => do
        return (← expand nodes depth entry.1, ← expand nodes depth entry.2))
    | other => return other

/-- The root of the only document of a text. -/
def parse? (text : String) : Option Node := do
  let (root, nodes, rest) ← document (← Layout.tokens? text)
  if !(rest.all fun token => token = .documentEnd) then none
  let (expanded, _) ← (expand nodes maxDepth root).run (100 * root.steps)
  return expanded

end Node

end ManifestVariables.Yaml
