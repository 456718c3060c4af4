import ManifestVariables.Yaml.Cursor

/-!
# Tokens of a YAML text

The parts that a YAML text consists of. Where a block collection starts and ends is
a token too, although it is written by indentation.
-/

namespace ManifestVariables.Yaml

/-- How a scalar is written. -/
inductive ScalarStyle where
  | plain
  | singleQuoted
  | doubleQuoted
  | literal
  | folded
deriving DecidableEq, Repr

/-- A part of a YAML text. -/
inductive Token where
  | versionDirective (major minor : Nat)
  /-- A handle for tags and what it stands for. -/
  | tagDirective (handle base : String)
  | documentStart
  | documentEnd
  | blockSequenceStart
  | blockMappingStart
  | blockEnd
  | flowSequenceStart
  | flowSequenceEnd
  | flowMappingStart
  | flowMappingEnd
  | blockEntry
  | flowEntry
  | key
  | value
  | anchor (name : String)
  | reference (name : String)
  | tag (handle suffix : String)
  | scalar (style : ScalarStyle) (text : String)
deriving DecidableEq, Repr

namespace Token

/-- Reads the name of an anchor or alias whose sign has been read. -/
def name? (c : Cursor) : Option (String × Cursor) :=
  let (name, next) := c.span isNameChar
  let ended := match next.peek? with
    | some d => isBlank d || isBreak d || "?:,]\x7d%@`".toList.contains d
    | none => true
  if name.isEmpty || !ended then none else some (String.ofList name, next)

/-- Whether a character may stand in a tag; commas and brackets may only where the
tag is written out between angle brackets. -/
def isTagChar (verbatim : Bool) (c : Char) : Bool :=
  isNameChar c || ";/?:@&=+$.%!~*()".toList.contains c || c = '\x27' ||
    (verbatim && (c = ',' || c = '[' || c = ']'))

/-- The handle at the cursor, which begins with an exclamation mark and may end with
one. -/
def handle? (c : Cursor) : Option (List Char × Cursor) :=
  if c.peek? ≠ some '!' then none
  else
    let (name, next) := (c.advance 1).span isNameChar
    if next.peek? = some '!' then some ('!' :: name ++ ['!'], next.advance 1)
    else some ('!' :: name, next)

/-- Whether a tag that has been read may end here. -/
def tagEnds (inFlow : Bool) (c : Cursor) : Bool :=
  isSpaceOrEnd c.peek? || (inFlow && c.peek? = some ',')

/-- Reads a tag between angle brackets. -/
def verbatimTag? (c : Cursor) : Option (Token × Cursor) :=
  let (name, next) := (c.advance 2).span (isTagChar true)
  if name.isEmpty || next.peek? ≠ some '>' then none
  else some (tag "" (String.ofList name), next.advance 1)

/-- Reads a tag with a handle. One without a second exclamation mark is local. -/
def shorthandTag? (c : Cursor) : Option (Token × Cursor) := do
  let (handle, next) ← handle? c
  let (suffix, next) := next.span (isTagChar false)
  if 1 < handle.length ∧ handle.getLast? = some '!' then
    if suffix.isEmpty then none
    else return (tag (String.ofList handle) (String.ofList suffix), next)
  else
    match handle.drop 1 ++ suffix with
    | [] => return (tag "" "!", next)
    | name => return (tag "!" (String.ofList name), next)

/-- Reads a tag. -/
def tag? (inFlow : Bool) (c : Cursor) : Option (Token × Cursor) := do
  let (token, next) ← if c.second? = some '<' then verbatimTag? c else shorthandTag? c
  if tagEnds inFlow next then return (token, next) else none

/-- A number of one to nine digits. -/
def number? (c : Cursor) : Option (Nat × Cursor) :=
  let (digits, next) := c.span Char.isDigit
  if digits.isEmpty || 9 < digits.length then none
  else some (digits.foldl (fun value d => value * 10 + (d.toNat - '0'.toNat)) 0, next)

/-- Reads the version of a version directive. -/
def version? (c : Cursor) : Option (Token × Cursor) := do
  let (major, next) ← number? c.skipBlanks
  if next.peek? ≠ some '.' then none
  let (minor, next) ← number? (next.advance 1)
  return (versionDirective major minor, next)

/-- Reads the handle and the base of a tag directive. -/
def tagBase? (c : Cursor) : Option (Token × Cursor) := do
  let (handle, next) ← handle? c.skipBlanks
  if 1 < handle.length ∧ handle.getLast? ≠ some '!' then none
  if !(next.peek?.map isBlank).getD false then none
  let (base, next) := next.skipBlanks.span (isTagChar true)
  if base.isEmpty || !isSpaceOrEnd next.peek? then none
  return (tagDirective (String.ofList handle) (String.ofList base), next)

/-- Reads a directive, which takes a whole line. -/
def directive? (c : Cursor) : Option (Token × Cursor) := do
  let (name, next) := (c.advance 1).span isNameChar
  let (token, next) ← match String.ofList name with
    | "YAML" => version? next
    | "TAG" => tagBase? next
    | _ => none
  let next := next.skipBlanks.skipComment
  match next.break? with
  | some (_, line) => return (token, line)
  | none => if next.atEnd then return (token, next) else none

end Token

end ManifestVariables.Yaml
