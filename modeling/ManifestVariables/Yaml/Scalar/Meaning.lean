import ManifestVariables.Json.Basic
import ManifestVariables.Yaml.Token

/-!
# What scalars mean

A plain scalar without tag may mean null, a truth value or a number; every other
scalar means its own text unless its tag says otherwise. A number that begins with
a needless zero is a text, and so is one with blanks or underscores between its
digits.
-/

namespace ManifestVariables.Yaml.Meaning

/-- Whether a text means null. -/
def isNull (text : String) : Bool :=
  text = "~" || text = "null" || text = "Null" || text = "NULL"

/-- The truth value that a text means. -/
def flag? (text : String) : Option Bool :=
  if text = "true" || text = "True" || text = "TRUE" then some true
  else if text = "false" || text = "False" || text = "FALSE" then some false
  else none

/-- The value of a digit, letters counting from ten. -/
def digit? (radix : Nat) (c : Char) : Option Nat :=
  let value :=
    if c.isDigit then c.toNat - '0'.toNat
    else if 'a' ≤ c ∧ c ≤ 'z' then c.toNat - 'a'.toNat + 10
    else if 'A' ≤ c ∧ c ≤ 'Z' then c.toNat - 'A'.toNat + 10
    else radix
  if value < radix then some value else none

/-- The number that digits write; there must be one. -/
def digits? (radix : Nat) (text : List Char) : Option Nat :=
  if text.isEmpty then none
  else text.foldlM (fun value c => (digit? radix c).map fun d => value * radix + d) 0

/-- The text without the sign that may lead it. -/
def dropSign : List Char → List Char
  | '+' :: rest | '-' :: rest => rest
  | text => text

/-- Whether a text is a row of digits that begins with a needless zero. -/
def isZeroPadded (text : List Char) : Bool :=
  match dropSign text with
  | '0' :: c :: rest => (c :: rest).all Char.isDigit
  | _ => false

/-- The number that digits write, with the radix that their first letters name. -/
def magnitude? (text : List Char) : Option Nat :=
  match text with
  | '0' :: 'x' :: rest => digits? 16 rest
  | '0' :: 'o' :: rest => digits? 8 rest
  | '0' :: 'b' :: rest => digits? 2 rest
  | _ => digits? 10 text

/-- The natural number that a text writes, with an optional plus sign. -/
def natural? (text : String) : Option Nat :=
  let digits := match text.toList with
    | '+' :: rest => rest
    | rest => rest
  if isZeroPadded text.toList then none else magnitude? digits

/-- The integer that a text writes. -/
def int? (text : String) : Option Int :=
  match text.toList with
  | '-' :: rest =>
    if isZeroPadded rest then none else (magnitude? rest).map fun n => -(n : Int)
  | _ => (natural? text).map Int.ofNat

/-- What a text means that is read as an integer. -/
inductive IntReading where
  | none
  | value (n : Int)
  /-- The integer is known and too large to be a value. -/
  | tooLarge

/-- Reads an integer: a value has at most 64 bits, and one of more than 128 bits is
none at all. -/
def readInt (text : String) : IntReading :=
  match int? text with
  | some n =>
    if -(Nat.pow 2 63) ≤ n ∧ n < Nat.pow 2 64 then .value n
    else if -(Nat.pow 2 127) ≤ n ∧ n < Nat.pow 2 128 then .tooLarge
    else .none
  | none => .none

/-- The exponent of a floating-point number, zero where none is written. -/
def exponent? (text : List Char) : Option Int :=
  match text with
  | [] => some 0
  | c :: rest =>
    if c ≠ 'e' ∧ c ≠ 'E' then none
    else
      (digits? 10 (dropSign rest)).map fun n =>
        if rest.head? = some '-' then -(n : Int) else n

/-- The floating-point number that digits write, with a point and an exponent if
there are any. -/
def unsignedFloat? (negative : Bool) (text : List Char) : Option Binary64 := do
  let whole := text.takeWhile Char.isDigit
  let rest := text.dropWhile Char.isDigit
  let (fraction, rest) := match rest with
    | '.' :: tail => (tail.takeWhile Char.isDigit, tail.dropWhile Char.isDigit)
    | other => ([], other)
  let digits ← digits? 10 (whole ++ fraction)
  let exponent ← exponent? rest
  Binary64.ofDecimal? negative digits (exponent - fraction.length)

/-- The finite floating-point number that a text writes. -/
def float? (text : String) : Option Binary64 :=
  match text.toList with
  | '-' :: rest => unsignedFloat? true rest
  | '+' :: rest => unsignedFloat? false rest
  | rest => unsignedFloat? false rest

/-- Whether a text means an infinity or no number at all. -/
def isUnlimited (text : String) : Bool :=
  let bare := match text.toList with
    | '+' :: rest | '-' :: rest => String.ofList rest
    | _ => text
  bare = ".inf" || bare = ".Inf" || bare = ".INF" ||
    text = ".nan" || text = ".NaN" || text = ".NAN"

/-- The floating-point number that a text means; JSON has null for those that are
not finite. -/
def floatValue? (text : String) : Option Json :=
  if isUnlimited text then some .null else (float? text).map Json.float

/-- The value of a plain scalar without tag. -/
def plain? (text : String) : Option Json :=
  if text.isEmpty || isNull text then some .null
  else match flag? text with
    | some value => some (.bool value)
    | none =>
      match readInt text with
      | .value n => some (.int n)
      | .tooLarge => none
      | .none =>
        if isZeroPadded text.toList then some (.str text)
        else some ((floatValue? text).getD (.str text))

/-- The tags of the standard kinds of values. -/
def standardTag (kind : String) : String :=
  "tag:yaml.org,2002:" ++ kind

/-- Whether a tag is a name of the document's own. -/
def isLocal (tag : String) : Bool :=
  tag.toList.head? = some '!'

/-- The value of a scalar. A local tag has none. -/
def value? (tag : Option String) (style : ScalarStyle) (text : String) : Option Json :=
  match tag with
  | none => if style = .plain then plain? text else some (.str text)
  | some tag =>
    if isLocal tag then none
    else if tag = standardTag "bool" then (flag? text).map Json.bool
    else if tag = standardTag "int" then
      match readInt text with
      | .value n => some (.int n)
      | _ => none
    else if tag = standardTag "float" then floatValue? text
    else if tag = standardTag "null" then if isNull text then some .null else none
    else some (.str text)

end ManifestVariables.Yaml.Meaning
