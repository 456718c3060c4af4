import ManifestVariables.Http.Percent
import ManifestVariables.Text

/-!
# Hosts

The host of a URL is a domain, an IPv4 address or an IPv6 address in brackets.
Every name that ends in a number is an IPv4 address, in any of the notations with
one to four decimal, octal or hexadecimal parts, and is written with four decimal
ones.
-/

namespace ManifestVariables

/-- Why a text is not a URL. -/
inductive UrlError where
  | noScheme
  | emptyHost
  | domainName
  | domainCharacter
  | port
  | ipv4
  | ipv6
deriving DecidableEq, Repr

/-- The text shown for a text that is not a URL. -/
def UrlError.message : UrlError → String
  | noScheme => "relative URL without a base"
  | emptyHost => "empty host"
  | domainName => "invalid international domain name"
  | domainCharacter => "invalid domain character"
  | port => "invalid port number"
  | ipv4 => "invalid IPv4 address"
  | ipv6 => "invalid IPv6 address"

/-- The host of a URL. -/
inductive Host where
  | domain (name : String)
  | ipv4 (address : Nat)
  /-- The eight pieces of the address. -/
  | ipv6 (pieces : List Nat)
deriving DecidableEq, Repr

namespace Host

/-- A number written with the digits of a base. -/
def number? (base : Nat) (digits : List Char) : Option Nat :=
  digits.foldlM (fun value c =>
    ((Percent.digit? c).filter (· < base)).map fun digit => value * base + digit) 0

/-! ## IPv4 -/

/-- A part of an IPv4 address: hexadecimal behind `0x`, octal behind `0`. -/
def ipv4Part? : List Char → Option Nat
  | [] => none
  | '0' :: 'x' :: digits => number? 16 digits
  | '0' :: 'X' :: digits => number? 16 digits
  | ['0'] => some 0
  | '0' :: digits => number? 8 digits
  | digits => number? 10 digits

/-- The parts of a domain without the empty one behind a last dot. -/
def parts (name : List Char) : List (List Char) :=
  let pieces := Text.pieces '.' name
  if 1 < pieces.length ∧ pieces.getLast? = some [] then pieces.dropLast else pieces

/-- Whether the last part of a name is a number, even one that does not fit. -/
def endsInNumber (name : List Char) : Bool :=
  match (parts name).getLast? with
  | some last => (!last.isEmpty && last.all Char.isDigit) || (ipv4Part? last).isSome
  | none => false

/-- Puts numbers together to an address, the last one filling what the others
leave. -/
def ipv4Address? (numbers : List Nat) : Option Nat :=
  match numbers.getLast? with
  | none => none
  | some last =>
    let leading := numbers.dropLast
    if 3 < leading.length ∨ leading.any (255 < ·) ∨ Nat.pow 2 (8 * (4 - leading.length)) ≤ last then
      none
    else some (leading.zipIdx.foldl (fun address (n, i) => address + n * Nat.pow 2 (8 * (3 - i))) last)

/-- Reads an IPv4 address. -/
def parseIpv4 (name : List Char) : Except UrlError Host :=
  match ((parts name).mapM ipv4Part?).bind ipv4Address? with
  | some address => .ok (.ipv4 address)
  | none => .error .ipv4

/-! ## IPv6 -/

/-- A piece of an IPv6 address: one to four hexadecimal digits. -/
def ipv6Piece? (digits : List Char) : Option Nat :=
  if digits.isEmpty ∨ 4 < digits.length then none else number? 16 digits

/-- A number below 256 without leading zeros. -/
def byte? (digits : List Char) : Option Nat :=
  match digits with
  | [] => none
  | '0' :: _ :: _ => none
  | digits => (number? 10 digits).filter (· < 256)

/-- The two pieces that an IPv4 address at the end stands for. -/
def dottedPieces? (text : List Char) : Option (List Nat) :=
  match (Text.pieces '.' text).mapM byte? with
  | some [a, b, c, d] => some [256 * a + b, 256 * c + d]
  | _ => none

/-- The pieces between colons; the last may be an IPv4 address if `dotted` allows
it. -/
def ipv6Pieces? (dotted : Bool) (text : List Char) : Option (List Nat) :=
  if text.isEmpty then some []
  else
    let groups := Text.pieces ':' text
    match groups.getLast? with
    | none => none
    | some last =>
      if dotted && last.contains '.' then do
        return (← groups.dropLast.mapM ipv6Piece?) ++ (← dottedPieces? last)
      else groups.mapM ipv6Piece?

/-- The text before and behind the first two colons in a row. -/
def splitDoubleColon : List Char → Option (List Char × List Char)
  | ':' :: ':' :: rest => some ([], rest)
  | c :: rest => (splitDoubleColon rest).map fun (before, behind) => (c :: before, behind)
  | [] => none

/-- Reads an IPv6 address without its brackets. Two colons in a row stand for the
zeros that are missing, of which there is at least one. -/
def parseIpv6 (text : List Char) : Except UrlError Host :=
  let pieces : Option (List Nat) := match splitDoubleColon text with
    | some (before, behind) => do
      let left ← ipv6Pieces? false before
      let right ← ipv6Pieces? true behind
      if left.length + right.length < 8 then
        some (left ++ List.replicate (8 - left.length - right.length) 0 ++ right)
      else none
    | none => (ipv6Pieces? true text).filter (·.length = 8)
  match pieces with
  | some pieces => .ok (.ipv6 pieces)
  | none => .error .ipv6

/-- The zeros at the start of a list. -/
def leadingZeros (pieces : List Nat) : Nat := (pieces.takeWhile (· = 0)).length

/-- Where the first longest run of zeros begins and how long it is. -/
def longestZeros (pieces : List Nat) : Nat × Nat :=
  (List.range pieces.length).foldl (fun best start =>
    let length := leadingZeros (pieces.drop start)
    if best.2 < length then (start, length) else best) (0, 0)

/-- A number in lower-case hexadecimal digits. -/
def hexadecimal (value : Nat) : String := String.ofList (Nat.toDigits 16 value)

/-- An IPv6 address with its longest run of zeros left out. -/
def ipv6Text (pieces : List Nat) : String :=
  let joined (pieces : List Nat) : String := ":".intercalate (pieces.map hexadecimal)
  let run := longestZeros pieces
  if run.2 < 2 then joined pieces
  else joined (pieces.take run.1) ++ "::" ++ joined (pieces.drop (run.1 + run.2))

/-! ## All hosts -/

/-- What cannot stand in a domain. -/
def isForbidden (c : Char) : Bool :=
  c.toNat ≤ 0x20 || c.toNat = 0x7f ||
    ['%', '#', '/', ':', '<', '>', '?', '@', '[', '\\', ']', '^', '|'].contains c

/-- What cannot stand in the host of a URL whose scheme is not known. -/
def isForbiddenAnywhere (c : Char) : Bool :=
  ['\x00', '\t', '\n', '\r', ' ', '#', '/', ':', '<', '>', '?', '@', '[', '\\', ']', '^',
    '|'].contains c

/-- Reads what stands in brackets. -/
def parseBracketed (text : List Char) : Except UrlError Host :=
  if text.getLast? = some ']' then parseIpv6 text.dropLast else .error .ipv6

/-- Reads the host of a web URL. -/
def parse : List Char → Except UrlError Host
  | '[' :: rest => parseBracketed rest
  | text =>
    match Percent.decodeText? text with
    | none => .error .domainName
    | some decoded =>
      let name := decoded.toList.map Char.toLower
      if name.any isForbidden then .error .domainName
      else if name.isEmpty then .error .emptyHost
      else if endsInNumber name then parseIpv4 name
      else .ok (.domain (String.ofList name))

/-- Reads the host of a URL whose scheme is not known. -/
def parseUnknown : List Char → Except UrlError Host
  | '[' :: rest => parseBracketed rest
  | text =>
    if text.any isForbiddenAnywhere then .error .domainCharacter
    else .ok (.domain (String.ofList (Percent.encode Percent.isControl text)))

/-- Writes a host. -/
def text : Host → String
  | domain name => name
  | ipv4 address =>
    ".".intercalate ([3, 2, 1, 0].map fun i => toString (address / Nat.pow 2 (8 * i) % 256))
  | ipv6 pieces => "[" ++ ipv6Text pieces ++ "]"

end Host

end ManifestVariables
