/-!
# Base64

Three bytes become four characters of six bits each; what is missing of the last
three is filled up with equals signs.
-/

namespace ManifestVariables.Base64

/-- The character for six bits. -/
def character (bits : Nat) : Char :=
  if bits < 26 then Char.ofNat (65 + bits)
  else if bits < 52 then Char.ofNat (71 + bits)
  else if bits < 62 then Char.ofNat (bits - 4)
  else if bits = 62 then '+'
  else '/'

/-- The four characters for a number of 24 bits. -/
def characters (bits : Nat) : List Char :=
  [18, 12, 6, 0].map fun shift => character (bits / Nat.pow 2 shift % 64)

/-- Bytes in base 64. -/
def encode : List UInt8 → List Char
  | a :: b :: c :: rest =>
    characters (a.toNat * 65536 + b.toNat * 256 + c.toNat) ++ encode rest
  | [a, b] => (characters (a.toNat * 65536 + b.toNat * 256)).take 3 ++ ['=']
  | [a] => (characters (a.toNat * 65536)).take 2 ++ ['=', '=']
  | [] => []

end ManifestVariables.Base64
