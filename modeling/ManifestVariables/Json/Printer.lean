import ManifestVariables.Json.Basic

/-!
# Writing JSON

`Json.compact` writes a value without blanks and `Json.pretty` with one line per
item and two blanks per level. Only the quote, the backslash and the control
characters below the blank are escaped; every other character is written as it
is.
-/

namespace ManifestVariables

namespace Json

/-- The characters that stand for one character inside a JSON string. -/
def escaped (c : Char) : List Char :=
  if c = '"' then ['\\', '"']
  else if c = '\\' then ['\\', '\\']
  else if c = '\n' then ['\\', 'n']
  else if c = '\r' then ['\\', 'r']
  else if c = '\t' then ['\\', 't']
  else if c.toNat = 8 then ['\\', 'b']
  else if c.toNat = 12 then ['\\', 'f']
  else if c.toNat < 32 then
    ['\\', 'u', '0', '0', Nat.digitChar (c.toNat / 16), Nat.digitChar (c.toNat % 16)]
  else [c]

/-- A text as a JSON string. -/
def quoted (s : String) : String :=
  "\"" ++ String.ofList (s.toList.flatMap escaped) ++ "\""

/-- The shortest text of a number, its positive exponents signed. -/
def number (x : Binary64) : String :=
  x.text .signed

mutual

/-- A value without blanks. -/
def compact : Json → String
  | null => "null"
  | bool value => if value then "true" else "false"
  | int value => toString value
  | float value => number value
  | str value => quoted value
  | arr items => "[" ++ compactItems items ++ "]"
  | obj fields => "\x7b" ++ compactFields fields ++ "\x7d"

/-- Items with commas between them. -/
def compactItems : List Json → String
  | [] => ""
  | [item] => item.compact
  | item :: rest => item.compact ++ "," ++ compactItems rest

/-- Fields with commas between them. -/
def compactFields : List (String × Json) → String
  | [] => ""
  | [(key, value)] => quoted key ++ ":" ++ value.compact
  | (key, value) :: rest => quoted key ++ ":" ++ value.compact ++ "," ++ compactFields rest

end

/-- The line break and blanks before a line of the given level. -/
def lineStart (level : Nat) : String :=
  "\n" ++ String.ofList (List.replicate (2 * level) ' ')

mutual

/-- A value with one line per item, at a level of nesting. Empty arrays and
objects stay on one line. -/
def prettyAt (level : Nat) : Json → String
  | arr [] => "[]"
  | arr items => "[" ++ prettyItems (level + 1) items ++ lineStart level ++ "]"
  | obj [] => "\x7b\x7d"
  | obj fields => "\x7b" ++ prettyFields (level + 1) fields ++ lineStart level ++ "\x7d"
  | null => "null"
  | bool value => if value then "true" else "false"
  | int value => toString value
  | float value => number value
  | str value => quoted value

/-- Items, each on a line of its own. -/
def prettyItems (level : Nat) : List Json → String
  | [] => ""
  | [item] => lineStart level ++ prettyAt level item
  | item :: rest => lineStart level ++ prettyAt level item ++ "," ++ prettyItems level rest

/-- Fields, each on a line of its own. -/
def prettyFields (level : Nat) : List (String × Json) → String
  | [] => ""
  | [(key, value)] => lineStart level ++ quoted key ++ ": " ++ prettyAt level value
  | (key, value) :: rest =>
    lineStart level ++ quoted key ++ ": " ++ prettyAt level value ++ "," ++
      prettyFields level rest

end

/-- A value with one line per item and two blanks per level. -/
def pretty (value : Json) : String :=
  prettyAt 0 value

end Json

end ManifestVariables
