import ManifestVariables.Record

/-!
# Reading JSON

A strict reader: one value, nothing but blanks around it, at most 127 levels of
arrays and objects. `Json.parse?` reads a whole text; `Json.parseRecord?` reads a
text for some named fields of a record and skips the others without looking at
their meaning.

A skipped value is held to the shape of JSON only: a number of any size, any
hexadecimal escape and any nesting pass.
-/

namespace ManifestVariables

namespace Json

/-- Arrays and objects may be nested this deep. -/
def nestingLimit : Nat := 127

/-- A blank between the parts of a text. -/
def isBlank (c : Char) : Bool :=
  c = ' ' || c = '\t' || c = '\n' || c = '\r'

/-- The rest of a text after its leading blanks. -/
def skipBlanks (text : List Char) : List Char :=
  text.dropWhile isBlank

/-- The rest of a text after the given characters. -/
def expect? : List Char → List Char → Option (List Char)
  | [], text => some text
  | _ :: _, [] => none
  | c :: cs, d :: ds => if c = d then expect? cs ds else none

/-- The value of a hexadecimal digit. -/
def hexDigit? (c : Char) : Option Nat :=
  if '0' ≤ c ∧ c ≤ '9' then some (c.toNat - '0'.toNat)
  else if 'a' ≤ c ∧ c ≤ 'f' then some (c.toNat - 'a'.toNat + 10)
  else if 'A' ≤ c ∧ c ≤ 'F' then some (c.toNat - 'A'.toNat + 10)
  else none

/-- The number that four hexadecimal digits write. -/
def hexWord? (a b c d : Char) : Option Nat := do
  let a ← hexDigit? a
  let b ← hexDigit? b
  let c ← hexDigit? c
  let d ← hexDigit? d
  return ((a * 16 + b) * 16 + c) * 16 + d

/-- The character that a single letter after a backslash stands for. -/
def simpleEscape? (c : Char) : Option Char :=
  match c with
  | '"' => some '"'
  | '\\' => some '\\'
  | '/' => some '/'
  | 'b' => some (Char.ofNat 8)
  | 'f' => some (Char.ofNat 12)
  | 'n' => some '\n'
  | 'r' => some '\r'
  | 't' => some '\t'
  | _ => none

/-- The rest of a string after its opening quote, as its characters in reverse
and what follows the closing quote. A high surrogate must be followed by an
escaped low one, a low surrogate may not stand alone. -/
def stringTail? : List Char → List Char → Option (List Char × List Char)
  | '"' :: rest, read => some (read, rest)
  | '\\' :: 'u' :: a :: b :: c :: d :: '\\' :: 'u' :: e :: f :: g :: h :: rest, read => do
    let first ← hexWord? a b c d
    if 0xD800 ≤ first ∧ first ≤ 0xDBFF then
      let second ← hexWord? e f g h
      if 0xDC00 ≤ second ∧ second ≤ 0xDFFF then
        stringTail? rest
          (Char.ofNat (0x10000 + (first - 0xD800) * 0x400 + (second - 0xDC00)) :: read)
      else none
    else if 0xDC00 ≤ first ∧ first ≤ 0xDFFF then none
    else stringTail? ('\\' :: 'u' :: e :: f :: g :: h :: rest) (Char.ofNat first :: read)
  | '\\' :: 'u' :: a :: b :: c :: d :: rest, read => do
    let code ← hexWord? a b c d
    if 0xD800 ≤ code ∧ code ≤ 0xDFFF then none
    else stringTail? rest (Char.ofNat code :: read)
  | '\\' :: c :: rest, read => do
    let character ← simpleEscape? c
    stringTail? rest (character :: read)
  | c :: rest, read =>
    if c.toNat < 32 ∨ c = '\\' then none else stringTail? rest (c :: read)
  | [], _ => none
termination_by text => text.length

/-- A string at the start of a text. -/
def string? : List Char → Option (String × List Char)
  | '"' :: rest => (stringTail? rest []).map fun read => (String.ofList read.1.reverse, read.2)
  | _ => none

/-- The number that a run of decimal digits writes. -/
def digitsValue (digits : List Char) : Nat :=
  digits.foldl (fun value c => value * 10 + (c.toNat - '0'.toNat)) 0

/-- The parts of a number as they are written. -/
structure NumberParts where
  negative : Bool
  whole : List Char
  fraction : Option (List Char)
  exponent : Option (Bool × List Char)

/-- The exponent at the start of a text, if there is one: whether it is negative,
and its digits, of which there must be one. -/
def exponentPart? : List Char → Option (Option (Bool × List Char) × List Char)
  | c :: rest =>
    if c = 'e' ∨ c = 'E' then
      let signed : Bool × List Char := match rest with
        | '+' :: tail => (false, tail)
        | '-' :: tail => (true, tail)
        | tail => (false, tail)
      let digits := signed.2.takeWhile Char.isDigit
      if digits.isEmpty then none
      else some (some (signed.1, digits), signed.2.dropWhile Char.isDigit)
    else some (none, c :: rest)
  | [] => some (none, [])

/-- A number at the start of a text: no leading zero before another digit, and a
digit on each side of the point. -/
def numberParts? (text : List Char) : Option (NumberParts × List Char) := do
  let signed : Bool × List Char := match text with
    | '-' :: tail => (true, tail)
    | tail => (false, tail)
  let whole := signed.2.takeWhile Char.isDigit
  let rest := signed.2.dropWhile Char.isDigit
  if whole.isEmpty ∨ (whole.head? = some '0' ∧ 1 < whole.length) then none
  else
    let pointed : Option (Option (List Char) × List Char) := match rest with
      | '.' :: tail =>
        let digits := tail.takeWhile Char.isDigit
        if digits.isEmpty then none else some (some digits, tail.dropWhile Char.isDigit)
      | tail => some (none, tail)
    let (fraction, rest) ← pointed
    let (exponent, rest) ← exponentPart? rest
    return (⟨signed.1, whole, fraction, exponent⟩, rest)

/-- The value of a written number. Without point and exponent it is an integer if
64 bits hold it, signed for a negative one and unsigned otherwise; minus zero and
everything else is the nearest floating-point number, which must be finite. -/
def NumberParts.value? (parts : NumberParts) : Option Json :=
  let whole := digitsValue parts.whole
  match parts.fraction, parts.exponent with
  | none, none =>
    if parts.negative then
      if 0 < whole ∧ whole ≤ Nat.pow 2 63 then some (int (-(whole : Int)))
      else (Binary64.ofDecimal? true whole 0).map float
    else if whole < Nat.pow 2 64 then some (int whole)
    else (Binary64.ofDecimal? false whole 0).map float
  | fraction, exponent =>
    let places := fraction.getD []
    let power : Int := match exponent with
      | none => 0
      | some (true, digits) => -(digitsValue digits : Int)
      | some (false, digits) => digitsValue digits
    (Binary64.ofDecimal? parts.negative (digitsValue (parts.whole ++ places))
      (power - places.length)).map float

mutual

/-- A value at the start of a text. `fuel` bounds the work and is as large as the
text needs, `depth` is how many more levels may be opened. -/
def readValue? : (fuel depth : Nat) → List Char → Option (Json × List Char)
  | 0, _, _ => none
  | fuel + 1, depth, text =>
    match skipBlanks text with
    | 'n' :: rest => (expect? ['u', 'l', 'l'] rest).map fun rest => (null, rest)
    | 't' :: rest => (expect? ['r', 'u', 'e'] rest).map fun rest => (bool true, rest)
    | 'f' :: rest => (expect? ['a', 'l', 's', 'e'] rest).map fun rest => (bool false, rest)
    | '"' :: rest => (string? ('"' :: rest)).map fun read => (str read.1, read.2)
    | '[' :: rest =>
      if depth = 0 then none
      else match skipBlanks rest with
        | ']' :: rest => some (arr [], rest)
        | rest => (readItems? fuel (depth - 1) rest).map fun read => (arr read.1, read.2)
    | '\x7b' :: rest =>
      if depth = 0 then none
      else match skipBlanks rest with
        | '\x7d' :: rest => some (obj [], rest)
        | rest => (readMembers? fuel (depth - 1) rest).map fun read => (obj read.1, read.2)
    | text => do
      let (parts, rest) ← numberParts? text
      let value ← parts.value?
      return (value, rest)

/-- The items of an array after its opening bracket, of which there is one. -/
def readItems? : (fuel depth : Nat) → List Char → Option (List Json × List Char)
  | 0, _, _ => none
  | fuel + 1, depth, text => do
    let (item, rest) ← readValue? fuel depth text
    match skipBlanks rest with
    | ']' :: rest => return ([item], rest)
    | ',' :: rest =>
      let (others, rest) ← readItems? fuel depth rest
      return (item :: others, rest)
    | _ => none

/-- The fields of an object after its opening brace, of which there is one, with
repeated keys kept. -/
def readMembers? : (fuel depth : Nat) → List Char → Option (List (String × Json) × List Char)
  | 0, _, _ => none
  | fuel + 1, depth, text => do
    let (key, rest) ← string? (skipBlanks text)
    let rest ← expect? [':'] (skipBlanks rest)
    let (value, rest) ← readValue? fuel depth rest
    match skipBlanks rest with
    | '\x7d' :: rest => return ([(key, value)], rest)
    | ',' :: rest =>
      let (others, rest) ← readMembers? fuel depth rest
      return ((key, value) :: others, rest)
    | _ => none

end

/-- As many steps as reading a text can take. -/
def steps (text : List Char) : Nat :=
  2 * text.length + 2

/-- Reads a whole text as one value; the last value of a repeated key counts. -/
def parse? (text : String) : Option Json :=
  match readValue? (steps text.toList) nestingLimit text.toList with
  | some (value, rest) => if (skipBlanks rest).isEmpty then some value.merged else none
  | none => none

/-- The rest of a text after a string whose meaning is not looked at: escapes need
only have their shape. -/
def skipStringTail? : List Char → Option (List Char)
  | '"' :: rest => some rest
  | '\\' :: 'u' :: a :: b :: c :: d :: rest => do
    let _ ← hexWord? a b c d
    skipStringTail? rest
  | '\\' :: c :: rest => do
    let _ ← simpleEscape? c
    skipStringTail? rest
  | c :: rest => if c.toNat < 32 ∨ c = '\\' then none else skipStringTail? rest
  | [] => none
termination_by text => text.length

/-- The rest of a text after a key and its colon. -/
def skipKey? (text : List Char) : Option (List Char) :=
  match skipBlanks text with
  | '"' :: rest => do
    let rest ← skipStringTail? rest
    expect? [':'] (skipBlanks rest)
  | _ => none

mutual

/-- The rest of a text after one value of any meaning and depth. -/
def skipValue? : (fuel : Nat) → List Char → Option (List Char)
  | 0, _ => none
  | fuel + 1, text =>
    match skipBlanks text with
    | 'n' :: rest => expect? ['u', 'l', 'l'] rest
    | 't' :: rest => expect? ['r', 'u', 'e'] rest
    | 'f' :: rest => expect? ['a', 'l', 's', 'e'] rest
    | '"' :: rest => skipStringTail? rest
    | '[' :: rest =>
      match skipBlanks rest with
      | ']' :: rest => some rest
      | rest => skipItems? fuel rest
    | '\x7b' :: rest =>
      match skipBlanks rest with
      | '\x7d' :: rest => some rest
      | rest => skipMembers? fuel rest
    | text => (numberParts? text).map Prod.snd

/-- The rest of a text after the items of an array. -/
def skipItems? : (fuel : Nat) → List Char → Option (List Char)
  | 0, _ => none
  | fuel + 1, text => do
    let rest ← skipValue? fuel text
    match skipBlanks rest with
    | ']' :: rest => some rest
    | ',' :: rest => skipItems? fuel rest
    | _ => none

/-- The rest of a text after the fields of an object. -/
def skipMembers? : (fuel : Nat) → List Char → Option (List Char)
  | 0, _ => none
  | fuel + 1, text => do
    let rest ← skipKey? text
    let rest ← skipValue? fuel rest
    match skipBlanks rest with
    | '\x7d' :: rest => some rest
    | ',' :: rest => skipMembers? fuel rest
    | _ => none

end

/-- The known fields of an object after its opening brace, with repeated keys
kept; the values of other keys are skipped. -/
def knownMembers? (known : List String) (fuel : Nat) :
    (steps : Nat) → List Char → Option (List (String × Json) × List Char)
  | 0, _ => none
  | count + 1, text => do
    let (key, rest) ← string? (skipBlanks text)
    let rest ← expect? [':'] (skipBlanks rest)
    let (found, rest) ←
      if known.contains key then
        (readValue? fuel (nestingLimit - 1) rest).map fun read => ([(key, read.1.merged)], read.2)
      else (skipValue? fuel rest).map fun rest => ([], rest)
    match skipBlanks rest with
    | '\x7d' :: rest => return (found, rest)
    | ',' :: rest =>
      let (others, rest) ← knownMembers? known fuel count rest
      return (found ++ others, rest)
    | _ => none

/-- Reads a whole text as a record with fields of the given names. An object gives
the names that it holds, none of which may be repeated; an array may not be longer
than the names. -/
def parseRecord? (names : List String) (text : String) : Option (Record Json) :=
  let chars := text.toList
  let fuel := steps chars
  match skipBlanks chars with
  | '\x7b' :: rest =>
    let read := match skipBlanks rest with
      | '\x7d' :: rest => some ([], rest)
      | rest => knownMembers? names fuel fuel rest
    match read with
    | some (found, rest) =>
      if (skipBlanks rest).isEmpty ∧ (found.map Prod.fst).Nodup then some (.named found) else none
    | none => none
  | '[' :: _ =>
    match readValue? fuel nestingLimit chars with
    | some (arr items, rest) =>
      if (skipBlanks rest).isEmpty ∧ items.length ≤ names.length then
        some (.placed (mergedItems items))
      else none
    | _ => none
  | _ => none

end Json

end ManifestVariables
