import ManifestVariables.Yaml.Cursor

/-!
# Quoted scalars

Between single quotes only the quote itself is special, and is written twice.
Between double quotes a backslash begins an escape. Line breaks fold in both.
-/

namespace ManifestVariables.Yaml

/-- The two kinds of quotes. -/
inductive Quote where
  | single
  | double
deriving DecidableEq, Repr

/-- The character of a quote. -/
def Quote.char : Quote → Char
  | single => '\x27'
  | double => '"'

namespace Quoted

/-- The value of a hexadecimal digit. -/
def hexDigit? (c : Char) : Option Nat :=
  if c.isDigit then some (c.toNat - '0'.toNat)
  else if 'a' ≤ c ∧ c ≤ 'f' then some (c.toNat - 'a'.toNat + 10)
  else if 'A' ≤ c ∧ c ≤ 'F' then some (c.toNat - 'A'.toNat + 10)
  else none

/-- The number that hexadecimal digits write. -/
def hexNumber? (digits : List Char) : Option Nat :=
  digits.foldlM (fun value c => (hexDigit? c).map fun digit => value * 16 + digit) 0

/-- The character of a number, if it is one. -/
def char? (n : Nat) : Option Char :=
  if h : n.isValidChar then some (Char.ofNatAux n h) else none

/-- The character that a letter behind a backslash stands for. -/
def simpleEscape? : Char → Option Char
  | '0' => char? 0
  | 'a' => char? 7
  | 'b' => char? 8
  | 't' | '\t' => some '\t'
  | 'n' => some '\n'
  | 'v' => char? 11
  | 'f' => char? 12
  | 'r' => some '\r'
  | 'e' => char? 27
  | ' ' => some ' '
  | '"' => some '"'
  | '/' => some '/'
  | '\\' => some '\\'
  | 'N' => char? 0x85
  | '_' => char? 0xa0
  | 'L' => char? 0x2028
  | 'P' => char? 0x2029
  | _ => none

/-- The number of digits behind a letter that begins a numeric escape. -/
def numericEscape? : Char → Option Nat
  | 'x' => some 2
  | 'u' => some 4
  | 'U' => some 8
  | _ => none

/-- The character of an escape whose backslash has been read. -/
def escape? (c : Cursor) : Option (Char × Cursor) := do
  let letter ← c.peek?
  match numericEscape? letter with
  | none => return (← simpleEscape? letter, c.advance 1)
  | some count =>
    let digits := (c.rest.drop 1).take count
    if digits.length < count then none
    return (← char? (← hexNumber? digits), c.advance (count + 1))

/-- Reads on in a scalar whose opening quote has been read; `read` holds the
characters so far, the last one first. -/
def scan (quote : Quote) : (fuel : Nat) → (read : List Char) → Cursor →
    Option (List Char × Cursor)
  | 0, _, _ => none
  | fuel + 1, read, c =>
    if c.atDocumentMark then none
    else match c.peek? with
      | none => none
      | some d =>
        if isBlank d || isBreak d then do
          let (gap, next) ← Gap.read 0 fuel Gap.empty c
          scan quote fuel (gap.text.reverse ++ read) next
        else if d = quote.char then
          if quote = .single && c.second? = some d then scan quote fuel (d :: read) (c.advance 2)
          else some (read.reverse, c.advance 1)
        else if quote = .double && d = '\\' then
          match (c.advance 1).break? with
          | some (_, line) => do
            let (gap, next) ← Gap.read 0 fuel { Gap.empty with first := some [] } line
            scan quote fuel (gap.text.reverse ++ read) next
          | none => do
            let (e, next) ← escape? (c.advance 1)
            scan quote fuel (e :: read) next
        else scan quote fuel (d :: read) (c.advance 1)

/-- The text of a scalar that begins with its quote, and what follows it. -/
def read? (quote : Quote) (c : Cursor) : Option (String × Cursor) :=
  (scan quote (c.rest.length + 1) [] (c.advance 1)).map fun found =>
    (String.ofList found.1, found.2)

end Quoted

end ManifestVariables.Yaml
