import ManifestVariables.Text

/-!
# Variable names

A variable name is a path of words with slashes between them, absolute when it
starts with a slash. Only behind its last word may dots follow, which select
keys inside the value of the variable. `Name.validate` reports the first rule
that a name breaks; `Name.qualify` moves a relative name under a director and a
deployment.
-/

namespace ManifestVariables

/-- Why a text is not a variable name, or not a placeholder for one. -/
inductive NameError where
  | notAPlaceholder (text : String)
  | empty
  | trailingSlash (name : String)
  | doubleSlash (name : String)
  | dotBeforeSlash (name : String)
  | segmentDot (name : String)
  | consecutiveDots (name : String)
  | misplacedBang (name : String)
  | badCharacter (name : String)
deriving DecidableEq, Repr

/-- The text shown for a name error. -/
def NameError.message : NameError → String
  | notAPlaceholder text => s!"'{text}' is not a placeholder, expected the form '((name))'"
  | empty => "Variable name must not be empty"
  | trailingSlash name => s!"Variable name '{name}' must not end with a forward slash"
  | doubleSlash name =>
    s!"Variable name '{name}' must not contain two consecutive forward slashes"
  | dotBeforeSlash name =>
    s!"Variable name '{name}' must not contain a dot before the last forward slash"
  | segmentDot name =>
    s!"Variable name '{name}' must not have a segment that starts or ends with a dot"
  | consecutiveDots name => s!"Variable name '{name}' must not contain two consecutive dots"
  | misplacedBang name => s!"Variable name '{name}' may only contain '!' as its first character"
  | badCharacter name =>
    s!"Variable name '{name}' must only contain alphanumeric, underscore, dash, dot or forward slash characters"

namespace Name

/-- The characters of the words of a name: ASCII letters and digits, underscore
and dash. -/
def isWordChar (c : Char) : Bool :=
  c.isAlphanum || c = '_' || c = '-'

/-- The characters that a name may hold at all. -/
def isNameChar (c : Char) : Bool :=
  isWordChar c || c = '/' || c = '.'

/-- Whether a piece of a name starts or ends with a dot. -/
def hasOuterDot (segment : List Char) : Bool :=
  segment.head? = some '.' || segment.getLast? = some '.'

/-- Checks a bare name, reporting the first rule that it breaks. -/
def validate (name : String) : Except NameError Unit :=
  let chars := name.toList
  if chars.isEmpty then .error .empty
  else if chars.getLast? = some '/' then .error (.trailingSlash name)
  else if Text.hasDouble '/' chars then .error (.doubleSlash name)
  else if (Text.splitLast '/' chars).1.contains '.' then .error (.dotBeforeSlash name)
  else if (Text.pieces '/' chars).any hasOuterDot then .error (.segmentDot name)
  else if Text.hasDouble '.' chars then .error (.consecutiveDots name)
  else if chars.contains '!' then .error (.misplacedBang name)
  else if chars.all isNameChar then .ok ()
  else .error (.badCharacter name)

/-- Whether a name starts with a slash. -/
def isAbsolute (name : String) : Bool :=
  name.toList.head? = some '/'

/-- The name under a director and a deployment; an absolute name stays as it is. -/
def qualify (director deployment name : String) : String :=
  if isAbsolute name then name
  else s!"/{director}/{deployment}/{name}"

/-- The relative names among the given ones, each once, in order of first
appearance. -/
def relativeNames (names : List String) : List String :=
  names.foldl
    (fun found name => if isAbsolute name || found.contains name then found else found ++ [name])
    []

/-- Fails with the relative names if there are any. -/
def requireAbsolute (names : List String) : Except (List String) Unit :=
  match relativeNames names with
  | [] => .ok ()
  | found => .error found

/-- The text shown where relative names are not allowed. -/
def relativeNamesMessage (names : List String) : String :=
  "Relative paths are not allowed in this context. The following must be be switched to use absolute paths: " ++
    ", ".intercalate (names.map fun name => s!"'{name}'")

end Name

/-- A name split into the variable that is stored under it and the keys that
select a part of the variable's value. -/
structure NamePath where
  base : String
  keys : List String
deriving DecidableEq, Repr

/-- Splits a name at the dots behind its last slash. -/
def NamePath.parse (name : String) : NamePath :=
  let (directory, last) := Text.splitLast '/' name.toList
  match Text.pieces '.' last with
  | head :: keys => ⟨String.ofList (directory ++ head), keys.map String.ofList⟩
  | [] => ⟨String.ofList directory, []⟩

end ManifestVariables
