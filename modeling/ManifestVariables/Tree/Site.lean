import ManifestVariables.Tree.Path
import ManifestVariables.Name.Placeholder

/-!
# Placeholders in a manifest tree

Strings are visited in the order of the manifest: fields in the order of their
object, items in the order of their array. An ignored subtree is never entered.
`Tree.sites` finds the strings that are exactly one placeholder, which are the
ones that resolution replaces; `Tree.rawNames` lists the names of all
placeholders, those inside longer strings included.
-/

namespace ManifestVariables

/-- A string that is exactly one placeholder, and where it stands. -/
structure Site where
  path : Path
  placeholder : String
deriving DecidableEq, Repr

namespace Tree

mutual

/-- The strings at and below a node that are not ignored, each with its path. -/
def strings (ignored : List SubtreePattern) (path : Path) (node : Json) :
    List (Path × String) :=
  if path.ignoredBy ignored then []
  else match node with
    | .str text => [(path, text)]
    | .obj fields => stringsInFields ignored path fields
    | .arr items => stringsInItems ignored path 0 items
    | _ => []

/-- The strings below the fields of an object. -/
def stringsInFields (ignored : List SubtreePattern) (path : Path) :
    List (String × Json) → List (Path × String)
  | [] => []
  | (name, child) :: rest =>
    strings ignored (path ++ [.key name]) child ++ stringsInFields ignored path rest

/-- The strings below the items of an array, the first of which has the given
position. -/
def stringsInItems (ignored : List SubtreePattern) (path : Path) (position : Nat) :
    List Json → List (Path × String)
  | [] => []
  | child :: rest =>
    strings ignored (path ++ [.index position]) child ++
      stringsInItems ignored path (position + 1) rest

end

/-- The strings that are exactly one placeholder, in order. -/
def sites (tree : Json) (ignored : List SubtreePattern) : List Site :=
  ((strings ignored [] tree).filter fun found => Placeholder.isFull found.2).map
    fun found => ⟨found.1, found.2⟩

/-- The unchecked names of all placeholders in all strings, in order. -/
def rawNames (tree : Json) (ignored : List SubtreePattern) : List String :=
  (strings ignored [] tree).flatMap fun found => Placeholder.rawNames found.2

end Tree

end ManifestVariables
