import ManifestVariables.Yaml.Cursor

/-!
# Block scalars

A block scalar is a text of indented lines. A literal one keeps its line breaks; in
a folded one a single break between two lines that do not begin with a blank is
read as a blank. The header says which of the last breaks are kept, and may say how
far the lines are indented.
-/

namespace ManifestVariables.Yaml.Block

/-- Which of the line breaks at the end are kept. -/
inductive Chomping where
  | strip
  | clip
  | keep
deriving DecidableEq, Repr

/-- What the header of a block scalar says. -/
structure Header where
  chomping : Chomping
  /-- How much further than their surroundings the lines are indented. -/
  indent : Option Nat

/-- The chomping that a sign stands for. -/
def chomping? : Option Char → Option Chomping
  | some '+' => some .keep
  | some '-' => some .strip
  | _ => none

/-- The indentation that a digit stands for, and the cursor behind it; zero is
malformed. -/
def digit? (c : Cursor) : Option (Option Nat × Cursor) :=
  match c.peek? with
  | some '0' => none
  | some d =>
    if d.isDigit then some (some (d.toNat - '0'.toNat), c.advance 1) else some (none, c)
  | none => some (none, c)

/-- The marks of a header in either order. -/
def marks? (c : Cursor) : Option (Header × Cursor) :=
  match chomping? c.peek? with
  | some chomping =>
    (digit? (c.advance 1)).map fun found => (⟨chomping, found.1⟩, found.2)
  | none => do
    let (indent, next) ← digit? c
    match indent, chomping? next.peek? with
    | some _, some chomping => return (⟨chomping, indent⟩, next.advance 1)
    | _, _ => return (⟨.clip, indent⟩, next)

/-- The header behind the sign of a block scalar, and the first line. -/
def header? (c : Cursor) : Option (Header × Cursor) := do
  let (header, next) ← marks? c
  let next := next.skipBlanks.skipComment
  match next.break? with
  | some (_, line) => return (header, line)
  | none => if next.atEnd then return (header, next) else none

/-- The empty lines at the cursor: their breaks, the widest indentation among them
and the line behind them. While the indentation is unknown, every blank belongs to
it. -/
def emptyLines (indent : Option Nat) : (fuel : Nat) → (breaks : List Char) → (widest : Nat) →
    Cursor → Option (List Char × Nat × Cursor)
  | 0, _, _, _ => none
  | fuel + 1, breaks, widest, c =>
    let width := (c.rest.takeWhile (· = ' ')).length
    let next := c.advance (match indent with
      | some limit => min width (limit - c.column)
      | none => width)
    let widest := max widest next.column
    let within := match indent with
      | some limit => next.column < limit
      | none => true
    if within && next.peek? = some '\t' then none
    else match next.break? with
      | some (b, line) => emptyLines indent fuel (breaks ++ [b]) widest line
      | none => some (breaks, widest, next)

/-- The lines that have been read, and what follows the last of them. -/
structure Lines where
  /-- The characters so far, the last one first. -/
  read : List Char
  /-- The break of the last line. -/
  lineBreak : List Char
  /-- The breaks of the empty lines behind it. -/
  emptyBreaks : List Char
  /-- Whether the last line begins with a blank. -/
  startsBlank : Bool

/-- What stands between the last line and the next one. -/
def Lines.separator (lines : Lines) (literal nextStartsBlank : Bool) : List Char :=
  if !literal && lines.lineBreak = ['\n'] && !lines.startsBlank && !nextStartsBlank then
    if lines.emptyBreaks.isEmpty then [' '] else lines.emptyBreaks
  else lines.lineBreak ++ lines.emptyBreaks

/-- Reads on through the lines that are indented to a column. -/
def scan (literal : Bool) (indent : Nat) : (fuel : Nat) → Lines → Cursor → Option (Lines × Cursor)
  | 0, _, _ => none
  | fuel + 1, lines, c =>
    if c.column ≠ indent || c.atEnd then some (lines, c)
    else do
      let startsBlank := (c.peek?.map isBlank).getD false
      let (line, ending) := c.span fun d => !isBreak d
      let read := line.reverse ++ (lines.separator literal startsBlank).reverse ++ lines.read
      let (lineBreak, next) := match ending.break? with
        | some (b, next) => ([b], next)
        | none => ([], ending)
      let (emptyBreaks, _, next) ← emptyLines (some indent) (next.rest.length + 1) [] 0 next
      scan literal indent fuel ⟨read, lineBreak, emptyBreaks, startsBlank⟩ next

/-- The text of the lines with the last breaks chomped. -/
def Lines.text (lines : Lines) (chomping : Chomping) : String :=
  let ending := match chomping with
    | .strip => []
    | .clip => lines.lineBreak
    | .keep => lines.lineBreak ++ lines.emptyBreaks
  String.ofList (lines.read.reverse ++ ending)

/-- The text of a block scalar that begins with its sign, and what follows it. The
surroundings are indented to the column `parent`, if they are a collection. -/
def read? (literal : Bool) (parent : Option Nat) (c : Cursor) : Option (String × Cursor) := do
  let (header, first) ← header? (c.advance 1)
  let fuel := first.rest.length + 1
  let given := header.indent.map fun extra => parent.getD 0 + extra
  let (emptyBreaks, widest, next) ← emptyLines given fuel [] 0 first
  let least := match parent with
    | some column => column + 1
    | none => 1
  let indent := given.getD (max widest least)
  let (lines, next) ← scan literal indent fuel ⟨[], [], emptyBreaks, false⟩ next
  return (lines.text header.chomping, next)

end ManifestVariables.Yaml.Block
