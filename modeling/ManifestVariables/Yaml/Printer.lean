import ManifestVariables.Binary64.Shortest
import ManifestVariables.Text
import ManifestVariables.Yaml.Scalar.Meaning

/-!
# Writing YAML

`Json.yaml` writes a value in blocks. A text is written plain where it reads back
as itself, in a literal block where it has several lines, and otherwise in quotes.
Items stand in the column of their key.
-/

namespace ManifestVariables

namespace Yaml.Printer

/-- Whether a character needs no escape. -/
def isPlainPrintable (c : Char) : Bool :=
  let n := c.toNat
  n = 0x0a || (0x20 ≤ n && n ≤ 0x7e) || (0xa0 ≤ n && n ≤ 0xfffd && n ≠ 0xfeff) || 0x10000 ≤ n

/-- Whether a text may be taken for a truth value by some reader. -/
def isSwitch (text : String) : Bool :=
  ["y", "yes", "n", "no", "true", "false", "on", "off"].any fun word =>
    text = word || text = word.toUpper || text = word.capitalize

/-- Whether a plain scalar of this text would mean something else. -/
def isAmbiguous (text : String) : Bool :=
  isSwitch text || Meaning.isZeroPadded text.toList ||
    match Meaning.plain? text with
    | some (.str _) => false
    | _ => true

/-- Whether a text would end a plain scalar: a colon before a space, or a number
sign behind one. -/
def endsPlain : List Char → Bool
  | ':' :: rest => isSpaceOrEnd rest.head? || endsPlain rest
  | ' ' :: '#' :: _ => true
  | _ :: rest => endsPlain rest
  | [] => false

/-- Whether a plain scalar may start like this. -/
def startsPlain : List Char → Bool
  | [] => true
  | c :: rest =>
    if c = '-' || c = '?' || c = ':' then !isSpaceOrEnd rest.head?
    else !("#,[]\x7b\x7d&*!|>\"%@`".toList.contains c || c = '\x27')

/-- Whether a text is read back whole from a plain scalar. -/
def isPlainSafe (text : List Char) : Bool :=
  text.all (fun c => isPlainPrintable c && !isBreak c) &&
    text.head? ≠ some ' ' && text.getLast? ≠ some ' ' &&
    !"---".toList.isPrefixOf text && !"...".toList.isPrefixOf text &&
    startsPlain text && !endsPlain text

/-- Whether a blank stands before a line break or the end. -/
def hasTrailingBlank : List Char → Bool
  | [] => false
  | [c] => c = ' '
  | c :: d :: rest => (c = ' ' && isBreak d) || hasTrailingBlank (d :: rest)

/-- Whether a text with several lines may be written as a block. -/
def isBlockSafe (text : List Char) : Bool :=
  text.all isPlainPrintable && !hasTrailingBlank text

/-- A text between single quotes. -/
def singleQuoted (text : List Char) : String :=
  String.ofList ('\x27' :: text.flatMap (fun c => if c = '\x27' then [c, c] else [c]) ++ ['\x27'])

/-- A number in hexadecimal digits of a fixed count. -/
def hex : (count : Nat) → Nat → List Char
  | 0, _ => []
  | count + 1, n => hex count (n / 16) ++ [(Nat.digitChar (n % 16)).toUpper]

/-- A character that needs an escape, as it is written behind a backslash. -/
def escape (c : Char) : List Char :=
  match c.toNat with
  | 0 => ['0']
  | 7 => ['a']
  | 8 => ['b']
  | 9 => ['t']
  | 10 => ['n']
  | 11 => ['v']
  | 12 => ['f']
  | 13 => ['r']
  | 27 => ['e']
  | 0x85 => ['N']
  | 0xa0 => ['_']
  | 0x2028 => ['L']
  | 0x2029 => ['P']
  | n =>
    if c = '"' || c = '\\' then [c]
    else if n ≤ 0xff then 'x' :: hex 2 n
    else if n ≤ 0xffff then 'u' :: hex 4 n
    else 'U' :: hex 8 n

/-- A text between double quotes. -/
def doubleQuoted (text : List Char) : String :=
  let body := text.flatMap fun c =>
    if !isPlainPrintable c || isBreak c || c = '"' || c = '\\' then '\\' :: escape c else [c]
  String.ofList ('"' :: body ++ ['"'])

/-- A text between quotes, single ones if it needs no escapes. -/
def quoted (text : List Char) : String :=
  if text.all fun c => isPlainPrintable c && c ≠ '\n' then singleQuoted text
  else doubleQuoted text

/-- A text on one line. -/
def inline (text : String) : String :=
  if isPlainSafe text.toList && !isAmbiguous text then text else quoted text.toList

/-- The signs behind the bar of a block: the indentation where the text does not show
it, and what becomes of the last line break. -/
def blockHints (text : List Char) : String :=
  let indent := match text with
    | c :: _ => if c = ' ' || isBreak c then "2" else ""
    | [] => ""
  let chomping := match text.reverse with
    | last :: others =>
      if !isBreak last then "-"
      else match others with
        | [] => "+"
        | c :: _ => if isBreak c then "+" else ""
    | [] => "-"
  indent ++ chomping

/-- A text as lines, the first of which goes on behind its key or dash. -/
def textLines (text : String) : List String :=
  let chars := text.toList
  if !chars.contains '\n' then [inline text]
  else if !isBlockSafe chars then [doubleQuoted chars]
  else
    let pieces := Text.pieces '\n' chars
    let content := if pieces.getLast? = some [] then pieces.dropLast else pieces
    ("|" ++ blockHints chars) :: content.map String.ofList

/-- Lines moved two columns to the right; empty lines stay empty. -/
def indented (lines : List String) : List String :=
  lines.map fun line => if line.isEmpty then line else "  " ++ line

/-- Lines behind a sign of two columns. -/
def behind (sign : String) : List String → List String
  | [] => [sign]
  | first :: rest => (sign ++ first) :: indented rest

/-- Whether a text may be followed by its colon on the same line. -/
def isShortKey (text : String) : Bool :=
  !text.toList.any isBreak && text.utf8ByteSize ≤ 128

/-- Lines behind a key that is followed by its colon. -/
def behindKey (key : String) (value : Json) (lines : List String) : List String :=
  match value with
  | .arr (_ :: _) => (key ++ ":") :: lines
  | .obj (_ :: _) => (key ++ ":") :: indented lines
  | _ => behind (key ++ ": ") lines

mutual

/-- The lines of a value. -/
def lines : Json → List String
  | .null => ["null"]
  | .bool value => [if value then "true" else "false"]
  | .int value => [toString value]
  | .float value => [value.text .bare]
  | .str text => textLines text
  | .arr [] => ["[]"]
  | .arr items => itemLines items
  | .obj [] => ["\x7b\x7d"]
  | .obj fields => fieldLines fields

/-- The lines of items, each behind a dash. -/
def itemLines : List Json → List String
  | [] => []
  | item :: rest => behind "- " (lines item) ++ itemLines rest

/-- The lines of fields, each behind its key. -/
def fieldLines : List (String × Json) → List String
  | [] => []
  | (key, value) :: rest =>
    (if isShortKey key then behindKey (inline key) value (lines value)
      else behind "? " (textLines key) ++ behind ": " (lines value)) ++ fieldLines rest

end

end Yaml.Printer

/-- A value as a YAML document. -/
def Json.yaml (value : Json) : String :=
  String.join ((Yaml.Printer.lines value).map fun line => line ++ "\n")

end ManifestVariables
