import ManifestVariables.Machine.Basic
import ManifestVariables.Settings.Environment
import ManifestVariables.Text
import ManifestVariables.Text.Blank

/-!
# Environment files

A file named `.env` in the working directory, or in the nearest directory above it
that has one, adds variables to the environment. It has one assignment per line,
but a line goes on where a quotation mark is still open. Values may be quoted, and
may name other variables behind a dollar sign. What is in the environment already
is kept, and what follows a line that cannot be read is left out.
-/

namespace ManifestVariables.EnvironmentFile

/-! ## Lines -/

/-- Where in a line a character stands. -/
inductive Place where
  | text
  /-- Behind a blank, where a comment may begin. -/
  | blank
  | escape
  | single
  | singleEscape
  | double
  | doubleEscape
  | comment
deriving DecidableEq, Repr

/-- The place behind a character that begins something outside of quotes. -/
def opening (c : Char) : Place :=
  if c = '\\' then .escape
  else if c = '"' then .double
  else if c = '\x27' then .single
  else .text

/-- The place behind a character. -/
def Place.next (place : Place) (c : Char) : Place :=
  match place with
  | text => if Text.isBlank c && c ≠ '\n' && c ≠ '\r' then blank else opening c
  | blank => if c = '#' then comment else opening c
  | escape => text
  | single => if c = '\\' then singleEscape else if c = '\x27' then text else single
  | singleEscape => single
  | double => if c = '\\' then doubleEscape else if c = '"' then text else double
  | doubleEscape => double
  | comment => comment

/-- What stands in a line before a comment, and the place at its end. -/
def scan (place : Place) : List Char → List Char × Place
  | [] => ([], place)
  | c :: rest =>
    if place.next c = .comment then ([], .comment)
    else
      let (kept, last) := scan (place.next c) rest
      (c :: kept, last)

/-- The lines of a text, each with its line feed. -/
def lines : List Char → List (List Char)
  | [] => []
  | c :: rest =>
    if c = '\n' then [c] :: lines rest
    else match lines rest with
      | line :: others => (c :: line) :: others
      | [] => [[c]]

/-- Splitting a text into lines loses nothing. -/
theorem flatten_lines (text : List Char) : (lines text).flatten = text := by
  induction text with
  | nil => rfl
  | cons c rest ih =>
    unfold lines
    split
    · next h => simp [h, ih]
    · next h =>
      revert ih
      cases lines rest with
      | nil => intro ih; simpa using ih
      | cons line others => intro ih; simpa using ih

/-- A line without its line break. -/
def withoutBreak (line : List Char) : List Char :=
  match line.reverse with
  | '\n' :: '\r' :: rest => rest.reverse
  | '\n' :: rest => rest.reverse
  | _ => line

/-- Whether a line is a comment. -/
def isComment (line : List Char) : Bool := (Text.trimStart line).head? = some '#'

/-- The lines of assignments, put together from the lines of the text; none stands
for one that the text breaks off. -/
def assignments (before : List Char) (place : Place) :
    List (List Char) → List (Option (List Char))
  | [] => if place = .text then [] else [none]
  | line :: rest =>
    if isComment (before ++ line) then assignments [] .text rest
    else match scan place line with
      | (kept, .text) => some (before ++ withoutBreak kept) :: assignments [] .text rest
      | (kept, .comment) => some (before ++ kept) :: assignments [] .text rest
      | (kept, place) => assignments (before ++ kept) place rest

/-! ## Values -/

/-- Where in a value a character stands. -/
inductive ValuePlace where
  | text
  | escape
  /-- Between single quotation marks. -/
  | literal
  /-- In a name behind a dollar sign. -/
  | name (letters : List Char)
  /-- In a name between braces. -/
  | braced (letters : List Char)
  /-- Behind a blank, where only blanks and a comment may follow. -/
  | ended
deriving DecidableEq, Repr

/-- The character that an escaped one stands for. -/
def escaped? (c : Char) : Option Char :=
  if c = 'n' then some '\n'
  else if ['\\', '\x27', '"', '$', ' '].contains c then some c
  else none

/-- Reads a value, inside double quotation marks or not. -/
def value? (environment : Environment) (quoted : Bool) (place : ValuePlace) :
    List Char → Option (List Char)
  | [] =>
    match place with
    | .literal => none
    | .braced _ => none
    | .name letters => if quoted then none else some (named letters)
    | _ => if quoted then none else some []
  | c :: rest =>
    match place with
    | .ended =>
      if c = ' ' ∨ c = '\t' then value? environment quoted .ended rest
      else if c = '#' then some []
      else none
    | .escape => do
      let c ← escaped? c
      return c :: (← value? environment quoted .text rest)
    | .literal =>
      if c = '\x27' then value? environment quoted .text rest
      else (value? environment quoted .literal rest).map (c :: ·)
    | .name letters =>
      if Text.isWordChar c then value? environment quoted (.name (letters ++ [c])) rest
      else if c = '\x7b' ∧ letters = [] then value? environment quoted (.braced []) rest
      else if c = '$' then (value? environment quoted (.name []) rest).map (named letters ++ ·)
      else (value? environment quoted .text rest).map (named letters ++ c :: ·)
    | .braced letters =>
      if c = '\x7d' then (value? environment quoted .text rest).map (named letters ++ ·)
      else value? environment quoted (.braced (letters ++ [c])) rest
    | .text =>
      if c = '$' then value? environment quoted (.name []) rest
      else if c = '\\' then value? environment quoted .escape rest
      else if c = '"' then value? environment (!quoted) .text rest
      else if quoted then (value? environment quoted .text rest).map (c :: ·)
      else if c = '\x27' then value? environment quoted .literal rest
      else if c = ' ' ∨ c = '\t' then value? environment quoted .ended rest
      else (value? environment quoted .text rest).map (c :: ·)
where
  /-- The value of a variable, empty if it is not set. -/
  named (letters : List Char) : List Char :=
    ((environment.get? (String.ofList letters)).getD "").toList

/-! ## Assignments -/

/-- Whether a character can begin a name. -/
def startsName (c : Char) : Bool := c.isAlpha || c = '_'

/-- Whether a character can stand in a name. -/
def inName (c : Char) : Bool := c.isAlphanum || c = '_' || c = '.'

/-- A name and what follows it and the blanks behind it. -/
def name? (text : List Char) : Option (List Char × List Char) :=
  match text with
  | c :: _ =>
    if startsName c then some (text.takeWhile inName, Text.trimStart (text.dropWhile inName))
    else none
  | [] => none

/-- The name of an assignment and what follows the equals sign. The word `export`
may stand before the name. -/
def target? (text : List Char) : Option (List Char × List Char) := do
  let (name, rest) ← name? text
  match rest with
  | '=' :: value => return (name, value)
  | _ =>
    if String.ofList name ≠ "export" then none
    else match ← name? rest with
      | (name, '=' :: value) => return (name, value)
      | _ => none

/-- The assignment of a line, if there is one; none where it cannot be read. -/
def assignment? (environment : Environment) (line : List Char) :
    Option (Option (String × String)) :=
  let text := Text.trim line
  if text.isEmpty || text.head? = some '#' then some none
  else do
    let (name, rest) ← target? text
    let rest := Text.trimStart rest
    let value ← if rest.head? = some '#' then some [] else value? environment false .text rest
    return some (String.ofList name, String.ofList value)

/-! ## Files -/

/-- The environment with a variable added, unless it is set already. -/
def add (environment : Environment) (name value : String) : Environment :=
  if (environment.get? name).isSome then environment
  else { environment with bindings := Keyed.put environment.bindings name value }

/-- Adds what some lines assign, up to one that cannot be read. -/
def addLines (environment : Environment) : List (Option (List Char)) → Environment
  | some line :: rest =>
    match assignment? environment line with
    | some (some (name, value)) => addLines (add environment name value) rest
    | some none => addLines environment rest
    | none => environment
  | _ => environment

/-- Adding a variable changes none that is set. -/
theorem get?_add {environment : Environment} {name value : String} (other added : String)
    (held : environment.get? name = some value) :
    (add environment other added).get? name = some value := by
  unfold add
  split
  · exact held
  · next unset =>
    have distinct : name ≠ other := by
      intro same
      subst same
      simp [held] at unset
    simpa [Environment.get?, Keyed.get?_put_of_ne distinct] using held

/-- What a file assigns changes no variable that is set. -/
theorem get?_addLines {name value : String} (assigned : List (Option (List Char)))
    (environment : Environment) (held : environment.get? name = some value) :
    (addLines environment assigned).get? name = some value := by
  induction assigned generalizing environment with
  | nil => exact held
  | cons line rest ih =>
    cases line with
    | none => exact held
    | some line =>
      unfold addLines
      split
      · exact ih _ (get?_add _ _ held)
      · exact ih _ held
      · exact held

/-- Adds what a file assigns. A mark of the byte order is left out. -/
def addText (environment : Environment) (text : String) : Environment :=
  let text := match text.toList with
    | c :: rest => if c.toNat = 0xfeff then rest else c :: rest
    | [] => []
  addLines environment (assignments [] .text (lines text))

/-- The directories from a place up to the root, each without the slash behind it. -/
def ancestors (directory : String) : List String :=
  let parts := (Text.pieces '/' directory.toList).filter (!·.isEmpty)
  (List.range (parts.length + 1)).reverse.map fun depth =>
    String.ofList ((parts.take depth).flatMap fun name => '/' :: name)

/-- The text of the first of some files that is there. -/
def firstText : List String → Machine.Action (Option String)
  | [] => .done none
  | path :: rest =>
    (Machine.isFile path).andThen fun found =>
      if found then (Machine.read path).andThen fun text => .done text.toOption
      else firstText rest

/-- The environment with what the nearest environment file assigns. -/
def load (environment : Environment) : Machine.Action Environment :=
  (firstText ((ancestors environment.directory).map (· ++ "/.env"))).andThen fun
    | some text => .done (addText environment text)
    | none => .done environment

end ManifestVariables.EnvironmentFile
