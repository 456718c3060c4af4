import ManifestVariables.Keyed
import ManifestVariables.Binary64.Shortest

/-!
# JSON values

Manifests, variable values and messages to the config server are JSON values.
Integers and floating-point numbers are different values even where they are
equal as numbers, and the fields of an object keep the order in which their keys
first appeared.
-/

namespace ManifestVariables

/-- A JSON value. -/
inductive Json where
  | null
  | bool (value : Bool)
  | int (value : Int)
  | float (value : Binary64)
  | str (value : String)
  | arr (items : List Json)
  | obj (fields : List (String × Json))
deriving Inhabited

namespace Json

/-- The fields of an object; no other value has any. -/
def fields? : Json → Option (Keyed String Json)
  | obj fields => some fields
  | _ => none

/-- The items of an array; no other value has any. -/
def items? : Json → Option (List Json)
  | arr items => some items
  | _ => none

/-- The text of a string. -/
def text? : Json → Option String
  | str value => some value
  | _ => none

/-- The value under a key of an object. -/
def get? : Json → String → Option Json
  | obj fields, key => Keyed.get? fields key
  | _, _ => none

mutual

/-- Equality of values: objects are compared without regard to the order of their
keys, and the two zeros among the floating-point numbers are equal. -/
def same : Json → Json → Bool
  | null, null => true
  | bool a, bool b => a == b
  | int a, int b => a == b
  | float a, float b => a.same b
  | str a, str b => a == b
  | arr as, arr bs => sameItems as bs
  | obj as, obj bs => as.length == bs.length && sameFields as bs
  | _, _ => false

/-- Item by item, with nothing left over. -/
def sameItems : List Json → List Json → Bool
  | [], [] => true
  | a :: as, b :: bs => same a b && sameItems as bs
  | _, _ => false

/-- Every field of the left side is held by the right side with an equal value. -/
def sameFields : List (String × Json) → Keyed String Json → Bool
  | [], _ => true
  | (key, value) :: rest, other =>
    (match Keyed.get? other key with
      | some found => same value found
      | none => false) && sameFields rest other

end

mutual

/-- The value with repeated keys of its objects merged: the last value of a key
stands at the key's first place. -/
def merged : Json → Json
  | arr items => arr (mergedItems items)
  | obj fields => obj (Keyed.ofPairs (mergedFields fields))
  | other => other

/-- Every item merged. -/
def mergedItems : List Json → List Json
  | [] => []
  | item :: rest => item.merged :: mergedItems rest

/-- Every field's value merged. -/
def mergedFields : List (String × Json) → List (String × Json)
  | [] => []
  | (key, value) :: rest => (key, value.merged) :: mergedFields rest

end

end Json

end ManifestVariables
