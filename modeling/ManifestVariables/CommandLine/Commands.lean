import ManifestVariables.CommandLine.Invocation
import ManifestVariables.CommandLine.LogFilter
import ManifestVariables.CommandLine.Overview
import ManifestVariables.CommandLine.Report
import ManifestVariables.Engine.Connected
import ManifestVariables.Machine.Manifest
import ManifestVariables.Settings.EnvironmentFile
import ManifestVariables.Settings.Sample
import ManifestVariables.Settings.Validation
import ManifestVariables.Tree.Check
import ManifestVariables.Yaml.Printer

/-!
# Carrying out commands

A command line is read with the variables of the environment file added to the
environment. The log filter must be one before anything is carried out. `execute`
answers with what is printed and with the exit status.
-/

namespace ManifestVariables.CommandLine

/-- A part of a command, which may end it. -/
abbrev Attempt (α : Type) := ExceptT Report (Program Machine.Needs) α

namespace Attempt

/-- An action whose failure ends the command. -/
def ofAction {ε α : Type} (failure : ε → Failure) (action : Machine.Action (Except ε α)) :
    Attempt α :=
  ExceptT.mk (action.andThen fun result =>
    .done (result.mapError fun cause => Report.failure (failure cause)))

/-- A result that ends the command if it is a failure. -/
def ofExcept {ε α : Type} (failure : ε → Failure) (result : Except ε α) : Attempt α :=
  ofAction failure (.done result)

/-- A run whose failure or crash ends the command. -/
def ofRun {ε α : Type} (failure : ε → Failure)
    (run : Machine.Action (Except Crash (Except ε α))) : Attempt α :=
  ExceptT.mk (run.andThen fun
    | .ok result => .done (result.mapError fun cause => Report.failure (failure cause))
    | .error crash => .done (.error (.crash crash.message)))

end Attempt

/-- A failure without a cause. -/
def plain (message : String) : Failure := { message }

/-! ## What commands need -/

/-- The failure to load settings. -/
def loadFailure (path : Option String) (e : SettingsManifest.LoadError) : Failure :=
  let cause := match path with
    | some path => "Failed to load config at " ++ Quoted.path path ++ ": " ++ e.message
    | none => e.message
  { message := "Failed to load configuration", cause := some cause }

/-- The settings in a file, or those that are found. -/
def loadSettings (environment : Environment) (path : Option String) :
    Attempt SettingsManifest :=
  .ofAction (loadFailure path) (SettingsManifest.find environment path)

/-- The settings, checked. -/
def loadValid (environment : Environment) (path : Option String) : Attempt Settings := do
  let manifest ← loadSettings environment path
  .ofExcept
    (fun e => { message := "Configuration validation failed", cause := some e.message })
    manifest.validate
  return manifest.settings

/-- The manifest in a file. -/
def loadManifest (path : String) : Attempt Json :=
  .ofAction (fun e => { message := e.message, cause := some e.cause }) (Manifest.load path)

/-- The connection that settings describe. -/
def openConnection (settings : Settings) (environment : Environment) : Attempt Connection :=
  .ofAction (fun e => plain e.message) (settings.connect environment)

/-- Opens the ledger. A database is never reached, so waiting for it ends in vain. -/
def openLedger (settings : Settings) (environment : Environment) : Attempt Unit := do
  match ← .ofExcept (fun e => plain e.message) (settings.storage environment) with
  | .memory => return
  | .database url =>
    match Url.parse url.toList with
    | .error e =>
      throw (.failure { message := "error with configuration: " ++ e.message
                        cause := some e.message })
    | .ok _ =>
      throw (.failure (plain "pool timed out while waiting for an open connection"))

/-! ## Commands -/

/-- Shows the settings. -/
def showSettings (environment : Environment) (path : Option String) (withPlaces : Bool) :
    Attempt String := do
  let manifest ← loadSettings environment path
  let places := if withPlaces then SettingsManifest.placesOverview environment path else ""
  return places ++ manifest.overview

/-- Validates the settings. -/
def validateSettings (environment : Environment) (path : Option String) : Attempt String := do
  let _ ← loadValid environment path
  return "✓ Configuration is valid\n"

/-- Writes sample settings. -/
def writeSample (path : String) : Attempt String := do
  .ofAction
    (fun e => { message := "Failed to write config to " ++ Quoted.path path
                cause := some e.message })
    (Machine.write path SettingsManifest.sample)
  return "✓ Configuration generated: " ++ path ++ "\n"

/-- Checks the placeholders of a manifest. -/
def checkManifest (path : String) (mustBeAbsolute : Bool) (ignored : List SubtreePattern) :
    Attempt String := do
  let report := Tree.check (← loadManifest path) ignored mustBeAbsolute
  if report.problems.isEmpty then
    return s!"✓ {report.names.length} placeholder(s) OK\n"
  else
    throw (.failure
      { message := s!"{report.problems.length} placeholder problem(s) found"
        findings := report.problems.map ("✗ " ++ ·) })

/-- Shows the latest value of a variable. -/
def showVariable (environment : Environment) (settingsPath : Option String) (name : String)
    (withId : Bool) : Attempt String := do
  let settings ← loadValid environment settingsPath
  let connection ← openConnection settings environment
  let found ← .ofRun (fun e : ServerError => plain e.message)
    (connection.runClient (Client.getByName name))
  let id := if withId then "id: " ++ found.id ++ "\n" else ""
  return id ++ found.value.pretty ++ "\n"

/-- The identity of the only variable set that a ledger in memory is given. -/
def onlySet : SetId := ⟨"00000000-0000-4000-8000-000000000000"⟩

/-- The writable variable set of a deployment, a new one if there is none. -/
def writableSet (deployment : String) : Store.Operation VariableSet :=
  (Store.current deployment).andThen fun
    | .error e => .done (.error e)
    | .ok (some set) =>
      if set.writable then .done (.ok set) else Store.createWritable onlySet deployment
    | .ok none => Store.createWritable onlySet deployment

/-- Resolves a manifest with the versions that a variable set of a deployment
records. -/
def pinIn (director deployment : String) (tree : Json) (options : InterpolationOptions) :
    Program Engine.Needs (Except ResolutionError Json) :=
  (Engine.ofStore (writableSet deployment)).andThen fun
    | .ok set => Interpolation.pinned director tree set options
    | .error e => .done (.error (.store e))

/-- Shows a manifest with its values. -/
def interpolateManifest (environment : Environment) (settingsPath : Option String)
    (path : String) (options : InterpolationOptions) (pin : Bool) : Attempt String := do
  let settings ← loadValid environment settingsPath
  let tree ← loadManifest path
  let connection ← openConnection settings environment
  let director := settings.directorName
  let program ← match options.deployment, pin with
    | some deployment, true => do
      openLedger settings environment
      pure (pinIn director deployment tree options)
    | _, _ => pure (Interpolation.latest director tree options)
  let resolved ← .ofRun (fun e : ResolutionError => plain e.message)
    (connection.runEngine program)
  return resolved.yaml

/-- Carries out what a command line asks for. -/
def Invocation.run (invocation : Invocation) (environment : Environment) : Attempt String :=
  let path := invocation.settingsPath
  match invocation.command with
  | .overview withPlaces => showSettings environment path withPlaces
  | .validate file => validateSettings environment (file <|> path)
  | .sample output => writeSample output
  | .check manifest mustBeAbsolute ignored => checkManifest manifest mustBeAbsolute ignored
  | .get name withId => showVariable environment path name withId
  | .interpolate manifest options pin =>
    interpolateManifest environment path manifest options pin

/-- What is printed before a command is carried out. -/
def Command.heading : Command → String
  | .validate _ => "Validating configuration...\n"
  | _ => ""

/-- Whether a log filter can be made: from the environment, or as it is given. -/
def hasLogFilter (environment : Environment) (given : String) : Bool :=
  (environment.get? "RUST_LOG").any LogFilter.isValid || LogFilter.isValid given

/-- Carries out a command line if its log filter is one. -/
def Invocation.report (invocation : Invocation) (environment : Environment) :
    Machine.Action Report :=
  if hasLogFilter environment invocation.logFilter then
    (invocation.run environment).run.andThen fun result =>
      .done ((Report.ofAttempt result).headed invocation.command.heading)
  else
    .done (.failure { message := "Failed to create log filter"
                      cause := some "invalid filter directive" })

/-- Answers a command line that asks for no command. -/
def Stop.report (stop : Stop) (bindings : Keyed String String) : Report :=
  match stop with
  | .usage => .misuse (root.usage [root.name])
  | .version path => .success (versionText path)
  | .help path =>
    match root.find? (path.drop 1) with
    | some level => .success (level.help path bindings)
    | none => .misuse (root.usage [root.name])

/-- Reads a command line and carries it out. -/
def execute (words : List String) (environment : Environment) : Machine.Action Report :=
  (EnvironmentFile.load environment).andThen fun environment =>
    match Invocation.read words environment.bindings with
    | .ok invocation => invocation.report environment
    | .error stop => .done (stop.report environment.bindings)

end ManifestVariables.CommandLine
