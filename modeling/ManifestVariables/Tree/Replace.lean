import ManifestVariables.Tree.Path

/-!
# Replacing a node

`Json.replaceAt` puts a value in the place of the node that a path leads to and
leaves the tree as it is where the path leads nowhere.
-/

namespace ManifestVariables

/-- Changes the value of the first pair with the key. -/
def Keyed.modify {κ α : Type} [DecidableEq κ] (change : α → α) : Keyed κ α → κ → Keyed κ α
  | [], _ => []
  | (k, v) :: rest, key =>
    if k = key then (k, change v) :: rest else (k, v) :: modify change rest key

/-- The tree with the node at a path replaced; unchanged if there is none. -/
def Json.replaceAt (value : Json) : Path → Json → Json
  | [], _ => value
  | .key name :: rest, .obj fields => .obj (Keyed.modify (replaceAt value rest) fields name)
  | .index position :: rest, .arr items => .arr (items.modify position (replaceAt value rest))
  | _ :: _, node => node

end ManifestVariables
