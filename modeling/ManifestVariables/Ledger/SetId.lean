import ManifestVariables.Ledger.Basic
import ManifestVariables.Text

/-!
# Identities of variable sets as text

A set is identified by 32 hexadecimal digits. They may be written in a row or in
five groups, and the groups in braces or behind `urn:uuid:`; the text of an
identity always has the groups and small letters.
-/

namespace ManifestVariables

namespace SetId

/-- Whether a character is a hexadecimal digit. -/
def isHexDigit (c : Char) : Bool :=
  c.isDigit || ('a' ≤ c && c ≤ 'f') || ('A' ≤ c && c ≤ 'F')

/-- The lengths of the groups. -/
def groupLengths : List Nat := [8, 4, 4, 4, 12]

/-- The groups of digits in a row. -/
def split : List Nat → List Char → List (List Char)
  | [], _ => []
  | length :: rest, digits => digits.take length :: split rest (digits.drop length)

/-- The groups that a text without braces or scheme writes. -/
def groups? (text : List Char) : Option (List (List Char)) :=
  if text.length = 32 then
    if text.all isHexDigit then some (split groupLengths text) else none
  else grouped? text
where
  /-- The groups between dashes. -/
  grouped? (text : List Char) : Option (List (List Char)) :=
    let groups := Text.pieces '-' text
    if groups.map List.length = groupLengths && groups.all fun group => group.all isHexDigit then
      some groups
    else none

/-- The groups that a text writes. -/
def read? (text : List Char) : Option (List (List Char)) :=
  let scheme := "urn:uuid:".toList
  match text with
  | '\x7b' :: rest =>
    if rest.getLast? = some '\x7d' then groups?.grouped? rest.dropLast else none
  | _ =>
    if scheme.isPrefixOf text then groups?.grouped? (text.drop scheme.length)
    else groups? text

/-- The identity that a text writes. -/
def parse? (text : String) : Option SetId :=
  (read? text.toList).map fun groups =>
    ⟨(String.ofList (Text.join '-' groups)).toLower⟩

end SetId

end ManifestVariables
