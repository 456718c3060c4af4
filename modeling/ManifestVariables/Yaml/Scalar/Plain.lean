import ManifestVariables.Yaml.Cursor

/-!
# Plain scalars

A plain scalar ends before a comment, before a colon that is followed by a space,
at the marks of a document and, within brackets, at any of their signs. It goes on
over line breaks as long as the lines are indented enough.
-/

namespace ManifestVariables.Yaml.Plain

/-- The signs that structure a collection in brackets. -/
def isFlowSign (c : Char) : Bool :=
  c = ',' || c = '[' || c = ']' || c = '\x7b' || c = '\x7d'

/-- Whether a colon that may not stand here does: before a sign in brackets. -/
def atStrayColon (inFlow : Bool) (c : Cursor) : Bool :=
  inFlow && c.peek? = some ':' &&
    match c.second? with
    | some d => isFlowSign d || d = '?'
    | none => false

/-- Whether the next character ends the scalar. -/
def atStop (inFlow : Bool) (c : Cursor) : Bool :=
  match c.peek? with
  | some d => (d = ':' && isSpaceOrEnd c.second?) || (inFlow && isFlowSign d)
  | none => true

/-- Reads on in a scalar; `read` holds the characters so far, the last one first,
and `gap` what stands between them and the cursor. The answer also says whether
the scalar was followed by a line break. -/
def scan (indent : Nat) (inFlow : Bool) : (fuel : Nat) → (read : List Char) → Gap → Cursor →
    Option (List Char × Bool × Cursor)
  | 0, _, _, _ => none
  | fuel + 1, read, gap, c =>
    let ended := some (read.reverse, gap.first.isSome, c)
    match c.peek? with
    | none => ended
    | some d =>
      if c.atDocumentMark || (d = '#' && !gap.isEmpty) then ended
      else if isBlank d || isBreak d then do
        let (gap, next) ← Gap.read indent fuel Gap.empty c
        if !inFlow && next.column < indent then some (read.reverse, gap.first.isSome, next)
        else scan indent inFlow fuel read gap next
      else if atStrayColon inFlow c then none
      else if atStop inFlow c then ended
      else scan indent inFlow fuel (d :: (gap.text.reverse ++ read)) Gap.empty (c.advance 1)

/-- The text of a plain scalar whose lines are indented to the column `indent`,
whether a line break followed it, and the cursor behind that. -/
def read? (indent : Nat) (inFlow : Bool) (c : Cursor) : Option (String × Bool × Cursor) :=
  (scan indent inFlow (2 * c.rest.length + 2) [] Gap.empty c).map fun found =>
    (String.ofList found.1, found.2)

end ManifestVariables.Yaml.Plain
