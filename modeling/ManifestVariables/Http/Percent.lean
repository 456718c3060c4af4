/-!
# Percent-encoded text

In a URL a byte may be written as a percent sign and two hexadecimal digits. Which
characters must be written so depends on the part of the URL they stand in; those
beyond ASCII must be everywhere, byte by byte of their UTF-8 form.
-/

namespace ManifestVariables.Percent

/-- A control character, or one beyond ASCII. -/
def isControl (c : Char) : Bool := c.toNat < 0x20 || 0x7f ≤ c.toNat

/-- What is escaped in a fragment. -/
def inFragment (c : Char) : Bool := isControl c || [' ', '"', '<', '>', '\x60'].contains c

/-- What is escaped in the query of a web URL. -/
def inQuery (c : Char) : Bool := isControl c || [' ', '"', '#', '<', '>', '\x27'].contains c

/-- What is escaped in a path as it is written. -/
def inPath (c : Char) : Bool := inFragment c || ['#', '?', '\x7b', '\x7d'].contains c

/-- What is escaped in a text that becomes one segment of a path. -/
def inSegment (c : Char) : Bool := inPath c || ['/', '%', '\\'].contains c

/-- What is escaped in the name and the password of a user. -/
def inUserInfo (c : Char) : Bool :=
  inPath c || ['/', ':', ';', '=', '@', '[', '\\', ']', '^', '|'].contains c

/-- A hexadecimal digit. -/
def digit (value : Nat) : Char :=
  if value < 10 then Char.ofNat (48 + value) else Char.ofNat (55 + value)

/-- The value of a hexadecimal digit of either case. -/
def digit? (c : Char) : Option Nat :=
  let code := c.toNat
  if 48 ≤ code ∧ code ≤ 57 then some (code - 48)
  else if 65 ≤ code ∧ code ≤ 70 then some (code - 55)
  else if 97 ≤ code ∧ code ≤ 102 then some (code - 87)
  else none

/-- A byte as a percent sign and two digits. -/
def encodeByte (byte : UInt8) : List Char :=
  ['%', digit (byte.toNat / 16), digit (byte.toNat % 16)]

/-- One character, escaped byte by byte where that is needed. -/
def encodeChar (escaped : Char → Bool) (c : Char) : List Char :=
  if escaped c then (String.utf8EncodeChar c).flatMap encodeByte else [c]

/-- A text with the characters escaped that need it. -/
def encode (escaped : Char → Bool) (text : List Char) : List Char :=
  text.flatMap (encodeChar escaped)

/-- The bytes that a text stands for; a percent sign without two digits stands for
itself. -/
def decode : List Char → List UInt8
  | '%' :: high :: low :: rest =>
    match digit? high, digit? low with
    | some h, some l => UInt8.ofNat (16 * h + l) :: decode rest
    | _, _ => 0x25 :: decode (high :: low :: rest)
  | c :: rest => String.utf8EncodeChar c ++ decode rest
  | [] => []

/-- The text that the bytes of a text stand for, if they are valid UTF-8. -/
def decodeText? (text : List Char) : Option String :=
  String.fromUTF8? ⟨(decode text).toArray⟩

end ManifestVariables.Percent
