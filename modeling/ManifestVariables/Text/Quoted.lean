/-!
# Quoted paths

A path in a message is put between quotation marks, with what cannot be seen in it
escaped: quotation marks and backslashes by a backslash, line breaks and tabs by
their letters, blanks and marks without a shape of their own by their numbers.
-/

namespace ManifestVariables.Quoted

/-- Ranges of characters without a shape of their own: controls, blanks other than
the space, combining marks, directions, and characters for private use. -/
def unseen : List (Nat × Nat) :=
  [(0x00, 0x1f), (0x7f, 0xa0), (0xad, 0xad), (0x300, 0x36f), (0x1680, 0x1680),
    (0x180e, 0x180e), (0x2000, 0x200f), (0x2028, 0x202f), (0x205f, 0x206f),
    (0x20d0, 0x20f0), (0x3000, 0x3000), (0xe000, 0xf8ff), (0xfe00, 0xfe0f),
    (0xfe20, 0xfe2f), (0xfeff, 0xfeff), (0xfff0, 0xfffb), (0xe0000, 0x10ffff)]

/-- Whether a character is shown by its number. -/
def isUnseen (c : Char) : Bool :=
  unseen.any fun range => range.1 ≤ c.toNat && c.toNat ≤ range.2

/-- One character of a quoted path. -/
def escape (c : Char) : List Char :=
  if c = '\n' then ['\\', 'n']
  else if c = '\r' then ['\\', 'r']
  else if c = '\t' then ['\\', 't']
  else if c = '\x00' then ['\\', '0']
  else if ['"', '\x27', '\\'].contains c then ['\\', c]
  else if isUnseen c then
    ['\\', 'u', '\x7b'] ++ Nat.toDigits 16 c.toNat ++ ['\x7d']
  else [c]

/-- A path between quotation marks. -/
def path (text : String) : String :=
  String.ofList (['"'] ++ text.toList.flatMap escape ++ ['"'])

end ManifestVariables.Quoted
