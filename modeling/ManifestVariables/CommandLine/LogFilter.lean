import ManifestVariables.Text
import ManifestVariables.Text.Blank
import ManifestVariables.Tree.Path

/-!
# Log filters

A log filter is a list of directives with commas between them. A directive is a
level, or names what it is about, by a target, a span in brackets with fields in
braces, or both, and the level behind an equals sign. `LogFilter.isValid` says
whether a text is a filter.
-/

namespace ManifestVariables.LogFilter

/-- Where in a directive a character stands. -/
inductive Place where
  | start
  /-- In a target, or in a level that stands alone. -/
  | target
  | span
  | field (isEmpty : Bool)
  /-- Behind the fields of a span. -/
  | behindFields
  /-- Behind a span. -/
  | behindSpan
  /-- Behind the equals sign, with what comes before the level. -/
  | level (before : Nat)
deriving DecidableEq, Repr

/-- The place behind a character, which is the one of the given index. -/
def Place.next? (place : Place) (index : Nat) (c : Char) : Option Place :=
  match place with
  | start =>
    if c = '[' then some span
    else if ['-', ':', '_'].contains c || Text.isWordChar c then some target
    else none
  | target =>
    if c = '=' then some (level (index + 1)) else if c = '[' then some span else some target
  | span =>
    if c = ']' then some behindSpan else if c = '\x7b' then some (field true) else some span
  | field isEmpty =>
    if c = '\x7d' then if isEmpty then none else some behindFields else some (field false)
  | behindFields => if c = ']' then some behindSpan else none
  | behindSpan => if c = '=' then some (level (index + 1)) else none
  | level before => some (level before)

/-- The place at the end of a directive. -/
def finalPlace? (text : List Char) : Option Place :=
  text.zipIdx.foldlM (fun place (c, index) => place.next? index c) Place.start

/-- The names of levels. -/
def levelNames : List String := ["error", "warn", "info", "debug", "trace", "off"]

/-- Whether a text is a level: a name, a number below six, or nothing. -/
def isLevel (text : List Char) : Bool :=
  text.isEmpty || levelNames.contains (String.ofList (text.map Char.toLower)) ||
    match SubtreePattern.readPosition? text with
    | some number => number < 6
    | none => false

/-- Whether a text is a directive. Blanks around it do not count, but move the level
away from where it is looked for. -/
def isDirective (text : List Char) : Bool :=
  match finalPlace? (Text.trim text) with
  | some .target => true
  | some .behindSpan => true
  | some (.level before) => isLevel (text.drop before)
  | _ => false

/-- Whether a text is a filter. -/
def isValid (text : String) : Bool :=
  ((Text.pieces ',' text.toList).filter (!·.isEmpty)).all isDirective

end ManifestVariables.LogFilter
