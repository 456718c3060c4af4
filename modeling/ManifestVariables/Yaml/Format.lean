import ManifestVariables.Record
import ManifestVariables.Yaml.Node
import ManifestVariables.Yaml.Scalar.Meaning

/-!
# Records in YAML

How YAML nodes are looked at. Where a text is wanted, any scalar is one, as it is
written; keys are texts in this sense. Where a value of an unknown kind is wanted,
scalars mean what `Meaning` says. Nothing at all stands for an empty record.
-/

namespace ManifestVariables.Yaml.Node

/-- The text of a scalar as it is written. -/
def text? : Node → Option String
  | scalar _ _ text => some text
  | _ => none

/-- Whether a scalar may be read as a kind of value with the given tag. -/
def mayMean (kind : String) (tag : Option String) (style : ScalarStyle) : Bool :=
  style = .plain || (style = .literal && tag = some (Meaning.standardTag kind))

/-- A truth value. -/
def flag? : Node → Option Bool
  | scalar tag style text => if mayMean "bool" tag style then Meaning.flag? text else none
  | _ => none

/-- A natural number below two to the 64. -/
def natural? : Node → Option Nat
  | scalar tag style text =>
    if mayMean "int" tag style then (Meaning.natural? text).filter (· < Nat.pow 2 64) else none
  | _ => none

/-- Whether a plain scalar stands for an absent value. -/
def isNull : Node → Bool
  | scalar tag .plain text =>
    match tag with
    | none => text.isEmpty || Meaning.isNull text
    | some tag => tag = Meaning.standardTag "null" && Meaning.isNull text
  | _ => false

/-- Whether nothing is written. -/
def isAbsent : Node → Bool
  | scalar _ .plain text => text.isEmpty
  | _ => false

/-- The name of a choice that carries nothing: a scalar, or a local tag of which
null is the content. -/
def choice? : Node → Option String
  | scalar tag style text =>
    match tag with
    | some name =>
      if !Meaning.isLocal name then some text
      else if style = .plain && (text.isEmpty || Meaning.isNull text) then
        some (String.ofList (name.toList.drop 1))
      else none
    | none => some text
  | _ => none

/-- The pairs of a mapping with scalars for keys. -/
def entries? : Node → Option (List (String × Node))
  | mapping _ entries => entries.mapM fun entry => entry.1.text?.map fun key => (key, entry.2)
  | node => if node.isAbsent then some [] else none

/-- A record: a mapping that repeats none of the names, or a sequence that is not
longer than they are. -/
def record? (names : List String) : Node → Option (Record Node)
  | sequence _ items => if items.length ≤ names.length then some (.placed items) else none
  | node => do
    let entries ← node.entries?
    if names.any fun name => 1 < (Keyed.keys entries).count name then none
    return .named entries

/-- Whether a tag is a name of the document's own, which no value has. -/
def isLocallyTagged (tag : Option String) : Bool :=
  match tag with
  | some name => Meaning.isLocal name
  | none => false

mutual

/-- The value of a node as JSON. The last value of a repeated key counts. -/
def json? : Node → Option Json
  | scalar tag style text => Meaning.value? tag style text
  | sequence tag items =>
    if isLocallyTagged tag then none else (jsonItems? items).map Json.arr
  | mapping tag entries =>
    if isLocallyTagged tag then none
    else (jsonEntries? entries).map fun fields => .obj (Keyed.ofPairs fields)
  | reference _ => none

/-- The values of all items. -/
def jsonItems? : List Node → Option (List Json)
  | [] => some []
  | item :: rest => do return (← item.json?) :: (← jsonItems? rest)

/-- The values of all entries. -/
def jsonEntries? : List (Node × Node) → Option (List (String × Json))
  | [] => some []
  | (key, value) :: rest => do
    return (← key.text?, ← value.json?) :: (← jsonEntries? rest)

end

/-- How YAML nodes are looked at. -/
def format : DataFormat Node where
  isNull := isNull
  text? := text?
  flag? := flag?
  natural? := natural?
  choice? := choice?
  record? := record?
  entries? := entries?
  json? := json?

end ManifestVariables.Yaml.Node
