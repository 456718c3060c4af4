import ManifestVariables.Settings.Basic

/-!
# Settings and the environment

A secret may be kept out of the settings: a text that begins with `env:` names the
variable of the environment that holds it. Two variables replace what the settings
say about the URL of the config server and the name of the director.
-/

namespace ManifestVariables

/-- What a program is started with. -/
structure Environment where
  /-- The variables with their values. -/
  bindings : Keyed String String
  /-- The directory that relative paths start from. -/
  directory : String
  hostName : Option String
  /-- The home directory that the account has, whatever the variables say. -/
  accountHome : Option String
deriving DecidableEq, Repr

namespace Environment

/-- A variable of the environment. -/
def get? (environment : Environment) (name : String) : Option String :=
  Keyed.get? environment.bindings name

/-- The home directory. -/
def home? (environment : Environment) : Option String :=
  match (environment.get? "HOME").filter (!·.isEmpty) with
  | some home => some home
  | none => environment.accountHome

end Environment

/-- A secret is kept in a variable that is not set. -/
structure MissingSecret where
  name : String
deriving DecidableEq, Repr

/-- The text shown for a missing secret. -/
def MissingSecret.message (missing : MissingSecret) : String :=
  s!"Environment variable not set: {missing.name}"

/-- The secret that a text is or names. -/
def Environment.secret (environment : Environment) (text : String) :
    Except MissingSecret String :=
  match text.toList with
  | 'e' :: 'n' :: 'v' :: ':' :: name =>
    match environment.get? (String.ofList name) with
    | some secret => .ok secret
    | none => .error ⟨String.ofList name⟩
  | _ => .ok text

/-- Where the ledger is kept. -/
inductive Storage where
  | memory
  | database (connection : String)
deriving DecidableEq, Repr

namespace Settings

/-- Where the ledger is kept, the secret put in. -/
def storage (settings : Settings) (environment : Environment) : Except MissingSecret Storage :=
  match settings.database with
  | none => .ok .memory
  | some connection => (environment.secret connection).map .database

/-- The variable that replaces the URL of the config server. -/
def urlVariable : String := "AEGIS_CONFIG_SERVER_URL"

/-- The variable that replaces the name of the director. -/
def directorVariable : String := "AEGIS_DIRECTOR_NAME"

/-- The settings with what the environment replaces. -/
def overridden (settings : Settings) (environment : Environment) : Settings :=
  { settings with
    server := { settings.server with
      url := (environment.get? urlVariable).getD settings.server.url }
    directorName := (environment.get? directorVariable).getD settings.directorName }

end Settings

namespace SettingsManifest

/-- The manifest with what the environment replaces. -/
def overridden (manifest : SettingsManifest) (environment : Environment) : SettingsManifest :=
  { manifest with settings := manifest.settings.overridden environment }

/-- The manifest where there is none, named for the host of the environment. -/
def forHost (environment : Environment) : SettingsManifest :=
  standard (environment.hostName.getD "aegis-director")

end SettingsManifest

end ManifestVariables
