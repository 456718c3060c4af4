/-!
# Reading positions in a YAML text

A cursor is what is left of a text together with the line and column reached. A
carriage return with its line feed is one line break, and every break but the two
separators of Unicode is read as a line feed.
-/

namespace ManifestVariables.Yaml

/-- Whether a character ends a line. -/
def isBreak (c : Char) : Bool :=
  c = '\n' || c = '\r' || c.toNat = 0x85 || c.toNat = 0x2028 || c.toNat = 0x2029

/-- Whether a character is a blank within a line. -/
def isBlank (c : Char) : Bool :=
  c = ' ' || c = '\t'

/-- Whether there is a blank or a break, or nothing at all. -/
def isSpaceOrEnd : Option Char → Bool
  | some c => isBlank c || isBreak c
  | none => true

/-- Whether a character may stand in a YAML text at all. -/
def isPrintable (c : Char) : Bool :=
  let n := c.toNat
  n = 0x09 || n = 0x0a || n = 0x0d || (0x20 ≤ n && n ≤ 0x7e) || n = 0x85 ||
    (0xa0 ≤ n && n ≤ 0xfffd) || 0x10000 ≤ n

/-- Whether a character may stand in the name of an anchor. -/
def isNameChar (c : Char) : Bool :=
  c.isAlphanum || c = '_' || c = '-'

/-- The rest of a text, and where it begins. -/
structure Cursor where
  rest : List Char
  index : Nat
  line : Nat
  column : Nat

namespace Cursor

/-- The start of a text. -/
def start (text : List Char) : Cursor :=
  ⟨text, 0, 0, 0⟩

/-- The next character. -/
def peek? (c : Cursor) : Option Char :=
  c.rest.head?

/-- The character after the next. -/
def second? (c : Cursor) : Option Char :=
  c.rest[1]?

/-- The cursor some characters further on the same line. -/
def advance (c : Cursor) (count : Nat) : Cursor :=
  { c with
    rest := c.rest.drop count
    index := c.index + count
    column := c.column + count }

/-- The characters that satisfy a test, which no break does, and the cursor behind
them. -/
def span (c : Cursor) (test : Char → Bool) : List Char × Cursor :=
  let read := c.rest.takeWhile test
  (read, c.advance read.length)

/-- The start of the next line. -/
def nextLine (c : Cursor) (count : Nat) : Cursor :=
  { rest := c.rest.drop count, index := c.index + count, line := c.line + 1, column := 0 }

/-- The break at the cursor as it is read, and the start of the next line. -/
def break? (c : Cursor) : Option (Char × Cursor) :=
  match c.rest with
  | '\r' :: '\n' :: _ => some ('\n', c.nextLine 2)
  | b :: _ =>
    if b.toNat = 0x2028 || b.toNat = 0x2029 then some (b, c.nextLine 1)
    else if isBreak b then some ('\n', c.nextLine 1)
    else none
  | [] => none

/-- Whether a text stands at the start of a line, with a space or the end of the
text behind it. -/
def atMark (c : Cursor) (mark : String) : Bool :=
  c.column = 0 && mark.toList.isPrefixOf c.rest && isSpaceOrEnd c.rest[mark.length]?

/-- Whether the line separates documents. -/
def atDocumentMark (c : Cursor) : Bool :=
  c.atMark "---" || c.atMark "..."

/-- Whether nothing is left. -/
def atEnd (c : Cursor) : Bool :=
  c.rest.isEmpty

/-- The cursor behind blanks. -/
def skipBlanks (c : Cursor) : Cursor :=
  (c.span isBlank).2

/-- The cursor behind a comment, at the end of its line. -/
def skipComment (c : Cursor) : Cursor :=
  if c.peek? = some '#' then (c.span fun d => !isBreak d).2 else c

end Cursor

/-- The blanks and breaks between two runs of a scalar. -/
structure Gap where
  /-- The blanks, where there is no break. -/
  blanks : List Char
  /-- The first break; empty where it is escaped. -/
  first : Option (List Char)
  /-- The breaks behind the first. -/
  more : List Char

namespace Gap

/-- No blanks and no breaks. -/
def empty : Gap := ⟨[], none, []⟩

/-- Whether there is nothing between two runs. -/
def isEmpty (gap : Gap) : Bool :=
  gap.blanks.isEmpty && gap.first.isNone

/-- What a gap stands for: a single line feed folds into a blank, more of them lose
the first. -/
def text (gap : Gap) : List Char :=
  match gap.first with
  | none => gap.blanks
  | some ['\n'] => if gap.more.isEmpty then [' '] else gap.more
  | some other => other ++ gap.more

/-- The gap with one more blank, which counts only before the first break. -/
def addBlank (gap : Gap) (c : Char) : Gap :=
  if gap.first.isNone then { gap with blanks := gap.blanks ++ [c] } else gap

/-- The gap with one more break. -/
def addBreak (gap : Gap) (c : Char) : Gap :=
  if gap.first.isNone then { gap with blanks := [], first := some [c] }
  else { gap with more := gap.more ++ [c] }

/-- Reads on through blanks and breaks. A tab in the indentation, left of column
`indent`, is malformed. At most `fuel` characters are read. -/
def read (indent : Nat) : (fuel : Nat) → Gap → Cursor → Option (Gap × Cursor)
  | 0, gap, c => some (gap, c)
  | fuel + 1, gap, c =>
    match c.break? with
    | some (b, next) => read indent fuel (gap.addBreak b) next
    | none =>
      match c.peek? with
      | some d =>
        if !isBlank d then some (gap, c)
        else if gap.first.isSome && c.column < indent && d = '\t' then none
        else read indent fuel (gap.addBlank d) (c.advance 1)
      | none => some (gap, c)

end Gap

end ManifestVariables.Yaml
