/-!
# Instants as text

The time of a written event is a date, a time of day and an offset. It is checked
for its form and its calendar and not kept.
-/

namespace ManifestVariables.Timestamp

/-- A number of exactly `count` digits at the start of a text. -/
def digits? (count : Nat) (text : List Char) : Option (Nat × List Char) :=
  let read := text.take count
  if read.length = count ∧ read.all Char.isDigit then
    some (read.foldl (fun value c => value * 10 + (c.toNat - '0'.toNat)) 0, text.drop count)
  else none

/-- The rest of a text after a character. -/
def after? (c : Char) : List Char → Option (List Char)
  | d :: rest => if c = d then some rest else none
  | [] => none

/-- How many days a month has. -/
def daysIn (year month : Nat) : Nat :=
  if month = 2 then
    if year % 4 = 0 ∧ (year % 100 ≠ 0 ∨ year % 400 = 0) then 29 else 28
  else if month = 4 ∨ month = 6 ∨ month = 9 ∨ month = 11 then 30
  else 31

/-- The rest of a text after a date of the calendar. -/
def date? (text : List Char) : Option (List Char) := do
  let (year, text) ← digits? 4 text
  let text ← after? '-' text
  let (month, text) ← digits? 2 text
  let text ← after? '-' text
  let (day, text) ← digits? 2 text
  if 1 ≤ month ∧ month ≤ 12 ∧ 1 ≤ day ∧ day ≤ daysIn year month then some text else none

/-- The rest of a text after a fraction of a second, if there is one. -/
def fraction? : List Char → Option (List Char)
  | '.' :: rest =>
    if (rest.takeWhile Char.isDigit).isEmpty then none else some (rest.dropWhile Char.isDigit)
  | text => some text

/-- The rest of a text after a time of day; a minute may have a leap second. -/
def timeOfDay? (text : List Char) : Option (List Char) := do
  let (hour, text) ← digits? 2 text
  let text ← after? ':' text
  let (minute, text) ← digits? 2 text
  let text ← after? ':' text
  let (second, text) ← digits? 2 text
  if hour < 24 ∧ minute < 60 ∧ second ≤ 60 then fraction? text else none

/-- Whether a text is an offset from universal time. -/
def isOffset (text : List Char) : Bool :=
  let numeric (rest : List Char) : Bool :=
    match digits? 2 rest with
    | some (_, ':' :: minutes) | some (_, minutes) =>
      match digits? 2 minutes with
      | some (value, rest) => value < 60 && rest.isEmpty
      | none => false
    | none => false
  match text with
  | ['Z'] | ['z'] => true
  | '+' :: rest | '-' :: rest => numeric rest
  | other => (String.ofList other).toLower = "utc"

/-- Whether a text is an instant. -/
def isInstant (text : String) : Bool :=
  match date? text.toList with
  | some (separator :: rest) =>
    (separator = 'T' || separator = 't' || separator = ' ') &&
      match timeOfDay? rest with
      | some offset => isOffset (offset.dropWhile (· = ' '))
      | none => false
  | _ => false

end ManifestVariables.Timestamp
