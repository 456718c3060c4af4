import ManifestVariables.CommandLine.Help
import ManifestVariables.Resolution.Interpolation
import ManifestVariables.Settings.Discovery

/-!
# What the command line asks for

The commands of `aegis-vars` with their arguments, and what a command line that
names one of them asks for. The path of the settings and the log filter can be
given with every command. A value that is not given is taken from the environment
or is a fallback.
-/

namespace ManifestVariables.CommandLine

/-! ## Arguments -/

/-- The path of the settings. -/
def settingsOption : Argument :=
  { name := "config", about := "Path to configuration file (overrides discovery)"
    arity := .single, letter := some 'c', isPath := true, valueName := "FILE"
    fromVariable := some SettingsManifest.pathVariable }

/-- The log filter. -/
def logOption : Argument :=
  { name := "log-level", about := "Log level (trace, debug, info, warn, error)"
    arity := .single, valueName := "LOG_LEVEL", fromVariable := some "AEGIS_LOG_LEVEL"
    fallback := some "warn", rank := 1 }

/-- The options of every command. -/
def sharedOptions : List Argument := [settingsOption, logOption]

/-- Whether the places are shown where settings are looked for. -/
def placesFlag : Argument :=
  { name := "paths", about := "Show config file paths checked", arity := .flag }

/-- The settings that are validated. -/
def fileArgument : Argument :=
  { name := "FILE", about := "Path to config file (default: discover)", arity := .single
    placed := true, isPath := true, valueName := "FILE" }

/-- Where sample settings are written. -/
def outputOption : Argument :=
  { name := "output", about := "Output path (default: ./aegis-variables.yaml)"
    arity := .single, letter := some 'o', isPath := true, valueName := "OUTPUT"
    fallback := some SettingsManifest.localPath }

/-- The manifest of a deployment. -/
def manifestArgument (about : String) : Argument :=
  { name := "MANIFEST", about, arity := .single, placed := true, required := true
    isPath := true, valueName := "MANIFEST" }

/-- Whether relative names are refused. -/
def absoluteFlag (rank : Nat) : Argument :=
  { name := "must-be-absolute", about := "Reject relative variable names", arity := .flag, rank }

/-- What is said of a subtree that is not checked. -/
def skippedSubtree : String :=
  "Subtree to skip, dot separated with '*' for any index " ++
    "(e.g. \"instance_groups.*.jobs\")"

/-- The subtrees that are left alone. -/
def ignoreOption (about : String) (rank : Nat) : Argument :=
  { name := "ignore", about, arity := .repeated, valueName := "PATH", rank }

/-- The name of a variable. -/
def nameArgument : Argument :=
  { name := "NAME", about := "Fully qualified variable name (e.g. /aegis/orders/db_password)"
    arity := .single, placed := true, required := true, valueName := "NAME" }

/-- Whether the id of a variable is shown. -/
def idFlag : Argument :=
  { name := "with-id", about := "Print the id alongside the value", arity := .flag }

/-- The deployment of a manifest. -/
def deploymentOption : Argument :=
  { name := "deployment", about := "Deployment that relative names belong to"
    arity := .single, letter := some 'd', valueName := "DEPLOYMENT" }

/-- Whether the versions that are used are recorded. -/
def pinFlag : Argument :=
  { name := "pin", about := "Pin resolved ids in the deployment's writable variable set"
    arity := .flag, needs := some "deployment", rank := 1 }

/-- Who is named in logs. -/
def actorOption : Argument :=
  { name := "actor", about := "Actor recorded in logs", arity := .single, valueName := "ACTOR"
    fromVariable := some "USER", fallback := some "cli", rank := 4 }

/-! ## Commands -/

/-- A command without commands of its own. -/
def leaf (name about : String) (arguments : List Argument) : Level :=
  .level name about (arguments ++ sharedOptions) []

/-- The commands about settings. -/
def settingsLevel : Level :=
  .level "config" "Configuration management" sharedOptions
    [leaf "show" "Show current configuration" [placesFlag],
      leaf "validate" "Validate configuration file" [fileArgument],
      leaf "generate" "Generate sample configuration" [outputOption]]

/-- All commands. -/
def root : Level :=
  .level "aegis-vars" "100monkeys.ai AEGIS deployment variables CLI" sharedOptions
    [settingsLevel,
      leaf "check" "Check placeholder syntax of a manifest"
        [manifestArgument "Manifest to check (YAML or JSON)", absoluteFlag 0,
          ignoreOption skippedSubtree 1],
      leaf "get" "Fetch the latest value of a variable" [nameArgument, idFlag],
      leaf "interpolate" "Interpolate a manifest against latest values"
        [manifestArgument "Manifest to interpolate (YAML or JSON)", deploymentOption, pinFlag,
          absoluteFlag 2,
          ignoreOption "Subtree to leave untouched, dot separated with '*' for any index" 3,
          actorOption]]

/-- The version of the program. -/
def programVersion : String := "0.15.0-pre-alpha"

/-- The text that tells the version of a command. -/
def versionText (path : List String) : String :=
  "-".intercalate path ++ " " ++ programVersion ++ "\n"

/-- What can be asked for. -/
inductive Command where
  /-- To show the settings, and where they are looked for. -/
  | overview (withPlaces : Bool)
  /-- To validate the settings in a file, or those that are found. -/
  | validate (file : Option String)
  /-- To write sample settings. -/
  | sample (output : String)
  /-- To check the placeholders of a manifest. -/
  | check (manifest : String) (mustBeAbsolute : Bool) (ignored : List SubtreePattern)
  /-- To show the latest value of a variable. -/
  | get (name : String) (withId : Bool)
  /-- To show a manifest with its values, recording their versions if so wanted. -/
  | interpolate (manifest : String) (options : InterpolationOptions) (pin : Bool)

/-- What a command line asks for. -/
structure Invocation where
  settingsPath : Option String
  logFilter : String
  command : Command

namespace Found

/-- The values that were given for an argument. -/
def all (found : Found) (argument : Argument) : List String :=
  (Keyed.get? found.given argument.name).getD []

/-- Whether an argument was given. -/
def has (found : Found) (argument : Argument) : Bool :=
  Keyed.contains found.given argument.name

/-- The value of an argument: the one that was given, or the one of the environment,
or the fallback. -/
def value? (found : Found) (bindings : Keyed String String) (argument : Argument) :
    Option String :=
  (found.all argument).getLast? <|> argument.fromVariable.bind (Keyed.get? bindings) <|>
    argument.fallback

/-- The command that was named. -/
def command? (found : Found) (bindings : Keyed String String) : Option Command :=
  let ignored := (found.all (ignoreOption "" 0)).map SubtreePattern.parse
  match found.path.drop 1 with
  | ["config", "show"] => some (.overview (found.has placesFlag))
  | ["config", "validate"] => some (.validate (found.value? bindings fileArgument))
  | ["config", "generate"] => (found.value? bindings outputOption).map .sample
  | ["check"] => do
    let manifest ← found.value? bindings (manifestArgument "")
    return .check manifest (found.has (absoluteFlag 0)) ignored
  | ["get"] => (found.value? bindings nameArgument).map (.get · (found.has idFlag))
  | ["interpolate"] => do
    let manifest ← found.value? bindings (manifestArgument "")
    let deployment := found.value? bindings deploymentOption
    return .interpolate manifest ⟨found.has (absoluteFlag 0), ignored, deployment⟩
      (found.has pinFlag)
  | _ => none

end Found

/-- Reads a command line. -/
def Invocation.read (words : List String) (bindings : Keyed String String) :
    Except Stop Invocation := do
  let found ← root.read bindings [root.name] words .start
  match found.command? bindings, found.value? bindings logOption with
  | some command, some logFilter =>
    return ⟨found.value? bindings settingsOption, logFilter, command⟩
  | _, _ => throw .usage

end ManifestVariables.CommandLine
