import ManifestVariables.Keyed

/-!
# Reading a command line

A command has arguments and may have commands of its own. An argument is either
recognised by its place or given as an option, by its long name behind two dashes
or its letter behind one. The value of an option follows an equals sign, the letter
itself, or as the next word, unless that begins with a dash. Behind two dashes
alone there are only arguments by place. `Level.read` says which commands were
named and which values were given, or why the command line stops there: it is
wrong, or asks for the version or for help.
-/

namespace ManifestVariables.CommandLine

/-- How many values an argument has. -/
inductive Arity where
  | flag
  | single
  | repeated
deriving DecidableEq, Repr

/-- An argument of a command. -/
structure Argument where
  name : String
  about : String
  arity : Arity
  /-- The letter of an option. -/
  letter : Option Char := none
  /-- Whether it is recognised by its place. -/
  placed : Bool := false
  required : Bool := false
  /-- Whether the value is a path, which must not be empty. -/
  isPath : Bool := false
  /-- How the value is called in help texts. -/
  valueName : String := ""
  /-- The variable of the environment that gives a value where there is none. -/
  fromVariable : Option String := none
  /-- The value where there is no other. -/
  fallback : Option String := none
  /-- An option that must be given along with this one. -/
  needs : Option String := none
  /-- The place of an option in help texts; equal ones go by letter or name. -/
  rank : Nat := 0
deriving DecidableEq, Repr

/-- A command with its arguments and its own commands. -/
inductive Level where
  | level (name about : String) (arguments : List Argument) (commands : List Level)

namespace Level

/-- The name of a command. -/
def name : Level → String
  | level name _ _ _ => name

/-- What a command is for. -/
def about : Level → String
  | level _ about _ _ => about

/-- The arguments of a command. -/
def arguments : Level → List Argument
  | level _ _ arguments _ => arguments

/-- The commands of a command. -/
def commands : Level → List Level
  | level _ _ _ commands => commands

/-- A command by its name. -/
def command? (level : Level) (name : String) : Option Level :=
  level.commands.find? fun command => command.name = name

end Level

/-- The option that asks for help. -/
def helpOption : Argument :=
  { name := "help", about := "Print help", arity := .flag, letter := some 'h', rank := 999 }

/-- The option that asks for the version. -/
def versionOption : Argument :=
  { name := "version", about := "Print version", arity := .flag, letter := some 'V', rank := 999 }

/-- The command that asks for help, as help texts show it. -/
def helpCommand : Level :=
  .level "help" "Print this message or the help of the given subcommand(s)"
    [{ name := "command", about := "Print help for the subcommand(s)", arity := .repeated,
       placed := true, valueName := "COMMAND" }] []

/-- The commands of a command, with the one that asks for help beside them. -/
def Level.shownCommands (level : Level) : List Level :=
  if level.commands.isEmpty then [] else level.commands ++ [helpCommand]

/-- The options of a command, those for help and version included. -/
def Level.options (level : Level) : List Argument :=
  (level.arguments.filter (!·.placed)) ++ [helpOption, versionOption]

/-- Why a command line is not carried out. -/
inductive Stop where
  /-- It is wrong. -/
  | usage
  /-- It asks for the version of the command with these names. -/
  | version (path : List String)
  /-- It asks for help on the command with these names. -/
  | help (path : List String)
deriving DecidableEq, Repr

/-- What has been read of the words for one command. -/
structure Scan where
  /-- The values of each argument that was given. -/
  given : Keyed String (List String)
  /-- The last argument, which still waits for its value or for being kept. -/
  pending : Option (Argument × Option String)
  /-- Whether two dashes alone have been read. -/
  trailing : Bool
  /-- The number of arguments by place that have been read. -/
  position : Nat

namespace Scan

/-- Before the first word. -/
def start : Scan := ⟨[], none, false, 0⟩

/-- Whether the next word is the value of an option. -/
def awaits (scan : Scan) : Bool :=
  match scan.pending with
  | some (_, none) => true
  | _ => false

/-- Keeps an argument with its value. -/
def keep (path : List String) (argument : Argument) (value : Option String) (scan : Scan) :
    Except Stop Scan :=
  if argument = helpOption then .error (.help path)
  else if argument = versionOption then .error (.version path)
  else if argument.arity ≠ .flag ∧ value.isNone then .error .usage
  else if argument.isPath ∧ value = some "" then .error .usage
  else if argument.arity ≠ .repeated ∧ Keyed.contains scan.given argument.name then .error .usage
  else
    let before := (Keyed.get? scan.given argument.name).getD []
    .ok { scan with given := Keyed.put scan.given argument.name (before ++ value.toList) }

/-- Keeps the argument that waits. -/
def settle (path : List String) (scan : Scan) : Except Stop Scan :=
  match scan.pending with
  | some (argument, value) => keep path argument value { scan with pending := none }
  | none => .ok scan

/-- Reads an option with the value that is attached to it. -/
def option (path : List String) (argument : Argument) (attached : Option String) (scan : Scan) :
    Except Stop Scan := do
  if argument.arity = .flag then
    if attached.isSome then throw .usage
    keep path argument none (← scan.settle path)
  else if attached.isSome then keep path argument attached (← scan.settle path)
  else return { (← scan.settle path) with pending := some (argument, none) }

/-- Reads the word of an option by its long name. -/
def long (path : List String) (options : List Argument) (word : List Char) (scan : Scan) :
    Except Stop Scan :=
  let name := String.ofList (word.takeWhile (· ≠ '='))
  let attached := match word.dropWhile (· ≠ '=') with
    | _ :: value => some (String.ofList value)
    | [] => none
  match options.find? fun argument => argument.name = name with
  | some argument => option path argument attached scan
  | none => .error .usage

/-- Reads the word of options by their letters. -/
def letters (path : List String) (options : List Argument) : List Char → Scan → Except Stop Scan
  | [], scan => .ok scan
  | letter :: rest, scan =>
    match options.find? fun argument => argument.letter = some letter with
    | none => .error .usage
    | some argument =>
      if argument.arity = .flag then do
        letters path options rest (← option path argument none scan)
      else
        let attached := match rest with
          | [] => none
          | '=' :: value => some (String.ofList value)
          | value => some (String.ofList value)
        option path argument attached scan

/-- Reads a word by its place. -/
def place (path : List String) (level : Level) (word : String) (scan : Scan) :
    Except Stop Scan :=
  match (level.arguments.filter Argument.placed)[scan.position]? with
  | some argument => do
    let settled ← scan.settle path
    return { settled with pending := some (argument, some word), position := scan.position + 1 }
  | none => .error .usage

/-- Reads a word that names no command. -/
def word (path : List String) (level : Level) (text : String) (scan : Scan) : Except Stop Scan :=
  if scan.trailing then place path level text scan
  else match text.toList with
    | ['-', '-'] => .ok { scan with trailing := true }
    | '-' :: '-' :: rest => long path level.options rest scan
    | '-' :: c :: rest => letters path level.options (c :: rest) scan
    | _ =>
      match scan.pending with
      | some (argument, none) => .ok { scan with pending := some (argument, some text) }
      | _ => place path level text scan

/-- Whether the environment gives a value that cannot be used. -/
def isMisled (bindings : Keyed String String) (scan : Scan) (argument : Argument) : Bool :=
  !Keyed.contains scan.given argument.name && argument.isPath &&
    argument.fromVariable.bind (Keyed.get? bindings) = some ""

/-- Checks what was given once the words have ended. -/
def finish (path : List String) (level : Level) (bindings : Keyed String String)
    (scan : Scan) : Except Stop (Keyed String (List String)) := do
  let scan ← scan.settle path
  if level.arguments.any (isMisled bindings scan) then throw .usage
  if level.arguments.any fun a => a.required && !Keyed.contains scan.given a.name then throw .usage
  if level.arguments.any fun a => Keyed.contains scan.given a.name &&
      a.needs.any fun other => !Keyed.contains scan.given other then throw .usage
  return scan.given

end Scan

/-- The commands that were named, and the values that were given. -/
structure Found where
  path : List String
  given : Keyed String (List String)
deriving DecidableEq, Repr

/-- Follows the names of commands that help is asked for. -/
def Level.helpPath (level : Level) (path : List String) : List String → Except Stop (List String)
  | [] => .ok path
  | name :: rest =>
    match level.shownCommands.find? fun command => command.name = name with
    | some command => command.helpPath (path ++ [name]) rest
    | none => .error .usage

/-- Reads the words for a command. What is given behind the name of a command
counts more than what is given before it. -/
def Level.read (bindings : Keyed String String) (level : Level) (path : List String) :
    List String → Scan → Except Stop Found
  | [], scan => do
    let given ← scan.finish path level bindings
    if level.commands.isEmpty then return ⟨path, given⟩ else throw .usage
  | text :: rest, scan =>
    if scan.trailing || scan.awaits then do
      Level.read bindings level path rest (← scan.word path level text)
    else match level.command? text with
      | some command => do
        let inner ← command.read bindings (path ++ [text]) rest .start
        let given ← scan.finish path level bindings
        return ⟨inner.path, Keyed.ofPairs (given ++ inner.given)⟩
      | none =>
        if text = "help" ∧ !level.commands.isEmpty then do
          throw (.help (← level.helpPath path rest))
        else do Level.read bindings level path rest (← scan.word path level text)

end ManifestVariables.CommandLine
