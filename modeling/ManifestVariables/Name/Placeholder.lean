import ManifestVariables.Name.Basic

/-!
# Placeholders

A placeholder is a name between double parentheses. Finding placeholders is
loose on purpose: `Placeholder.tokens` finds every `((...))` whatever stands
inside, and only `Placeholder.name` checks the name, so that a malformed
placeholder becomes a visible error instead of being passed over.
-/

namespace ManifestVariables.Placeholder

/-- A character that may stand between the parentheses of a placeholder. -/
def isBodyChar (c : Char) : Bool :=
  c ≠ '(' && c ≠ ')'

/-- The body of the placeholder at the start of a text, and what follows it. -/
def tokenAt? : List Char → Option (List Char × List Char)
  | '(' :: '(' :: rest =>
    match rest.dropWhile isBodyChar with
    | ')' :: ')' :: tail => some (rest.takeWhile isBodyChar, tail)
    | _ => none
  | _ => none

/-- A body between its double parentheses. -/
def wrap (body : List Char) : List Char :=
  '(' :: '(' :: body ++ [')', ')']

/-- The bodies of the placeholders from left to right, the first `skip`
characters belonging to one that was found before. -/
def bodiesFrom : (skip : Nat) → List Char → List (List Char)
  | _, [] => []
  | skip + 1, _ :: rest => bodiesFrom skip rest
  | 0, c :: rest =>
    match tokenAt? (c :: rest) with
    | some (body, _) => body :: bodiesFrom (body.length + 3) rest
    | none => bodiesFrom 0 rest

/-- The bodies of all placeholders in a text. -/
def bodies (text : String) : List (List Char) :=
  bodiesFrom 0 text.toList

/-- All placeholders in a text, in order of position. -/
def tokens (text : String) : List String :=
  (bodies text).map fun body => String.ofList (wrap body)

/-- Whether a text is exactly one placeholder with something inside. -/
def isFull (text : String) : Bool :=
  match tokenAt? text.toList with
  | some (body, rest) => !body.isEmpty && rest.isEmpty
  | none => false

/-- The body without the exclamation mark that may lead it. -/
def stripBang : List Char → List Char
  | '!' :: rest => rest
  | body => body

/-- What stands between the delimiters of a text, whatever it is. -/
def body? (text : List Char) : Option (List Char) :=
  match text with
  | '(' :: '(' :: rest =>
    match rest.reverse with
    | ')' :: ')' :: body => some body.reverse
    | _ => none
  | _ => none

/-- The name in a placeholder, checked. -/
def name (text : String) : Except NameError String :=
  match body? text.toList with
  | none => .error (.notAPlaceholder text)
  | some body =>
    let name := String.ofList (stripBang body)
    (Name.validate name).map fun _ => name

/-- The name in a placeholder, checked and split. -/
def path (text : String) : Except NameError NamePath :=
  (name text).map NamePath.parse

/-- The names that the placeholders of a text are written with, unchecked. -/
def rawNames (text : String) : List String :=
  (bodies text).map fun body => String.ofList (stripBang body)

end ManifestVariables.Placeholder
