import ManifestVariables.CommandLine.Grammar

/-!
# Help texts

The help of a command says what it is for, how it is used, which commands it has,
and which arguments and options. What is said of each stands in a column of its
own, with the variable of the environment and the fallback that give a value.
-/

namespace ManifestVariables.CommandLine

/-- How the value of an argument is written. -/
def Argument.valueText (argument : Argument) : String := "<" ++ argument.valueName ++ ">"

/-- How an argument by place is written. -/
def Argument.placeText (argument : Argument) : String :=
  let text :=
    if argument.required then argument.valueText else "[" ++ argument.valueName ++ "]"
  if argument.arity = .repeated then text ++ "..." else text

/-- How an option is written by its long name. -/
def Argument.longText (argument : Argument) : String :=
  if argument.arity = .flag then "--" ++ argument.name
  else "--" ++ argument.name ++ " " ++ argument.valueText

/-- How an option is written by its letter and its long name. -/
def Argument.optionText (argument : Argument) : String :=
  match argument.letter with
  | some letter => String.ofList ['-', letter, ',', ' '] ++ argument.longText
  | none => "    " ++ argument.longText

/-- What is said of an argument. -/
def Argument.description (argument : Argument) (bindings : Keyed String String) : String :=
  let fromVariable := argument.fromVariable.map fun name =>
    "[env: " ++ name ++ "=" ++ (Keyed.get? bindings name).getD "" ++ "]"
  let fallback := argument.fallback.map fun text => "[default: " ++ text ++ "]"
  " ".intercalate ([argument.about] ++ fromVariable.toList ++ fallback.toList)

/-- Whether an option comes before another one. -/
def Argument.precedes (argument other : Argument) : Bool :=
  argument.rank < other.rank || (argument.rank = other.rank && key argument ≤ key other)
where
  /-- The letter, small ones first, or else the name. -/
  key (argument : Argument) : String :=
    match argument.letter with
    | some letter => String.ofList [letter.toLower, if letter.isLower then '0' else '1']
    | none => argument.name

/-- A text with blanks behind it up to a width. -/
def padded (width : Nat) (text : String) : String :=
  text ++ String.ofList (List.replicate (width - text.length) ' ')

/-- A heading and two columns below it, or nothing where there are no rows. -/
def table (heading : String) (rows : List (String × String)) : List String :=
  if rows.isEmpty then []
  else
    let width := (rows.map fun row => row.1.length).foldl max 0
    [heading ++ ":\n" ++
      String.join (rows.map fun row => "  " ++ padded width row.1 ++ "  " ++ row.2 ++ "\n")]

namespace Level

/-- The options that help texts show. The command for help has none. -/
def shownOptions (level : Level) : List Argument :=
  if level.name = helpCommand.name then [] else level.options.mergeSort Argument.precedes

/-- How a command is used. -/
def usage (level : Level) (path : List String) : String :=
  let options := if level.shownOptions.isEmpty then [] else ["[OPTIONS]"]
  let places := (level.arguments.filter Argument.placed).map Argument.placeText
  let commands := if level.commands.isEmpty then [] else ["<COMMAND>"]
  "Usage: " ++ " ".intercalate (path ++ options ++ places ++ commands) ++ "\n"

/-- The help of a command. -/
def help (level : Level) (path : List String) (bindings : Keyed String String) : String :=
  let described (text : Argument → String) (argument : Argument) : String × String :=
    (text argument, argument.description bindings)
  "\n".intercalate (
    [level.about ++ "\n", level.usage path] ++
    table "Commands" (level.shownCommands.map fun command => (command.name, command.about)) ++
    table "Arguments"
      ((level.arguments.filter Argument.placed).map (described Argument.placeText)) ++
    table "Options" (level.shownOptions.map (described Argument.optionText)))

/-- The command that some names lead to. -/
def find? (level : Level) : List String → Option Level
  | [] => some level
  | name :: rest => do
    let command ← level.shownCommands.find? fun command => command.name = name
    command.find? rest

end Level

end ManifestVariables.CommandLine
