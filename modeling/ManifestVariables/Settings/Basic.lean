import ManifestVariables.Record

/-!
# Settings

The settings say under which director names are qualified, how the config server
is reached, and where the ledger is kept. They are written as a manifest of their
own, with a version, a kind and a name. Most fields have a value of their own where
they are not written.
-/

namespace ManifestVariables

/-- How often a call is tried. -/
structure RetrySettings where
  maxAttempts : Nat
  /-- The first wait in milliseconds. -/
  backoffMs : Nat
deriving DecidableEq, Repr

/-- How the config server is reached. -/
structure ServerSettings where
  url : String
  caCertPath : Option String
  timeoutSecs : Nat
  retry : RetrySettings
deriving DecidableEq, Repr

/-- The client that tokens are granted to. -/
structure ClientCredentials where
  tokenUrl : String
  clientId : String
  /-- A secret or where it is found. -/
  clientSecret : String
  caCertPath : Option String
deriving DecidableEq, Repr

/-- Where the token of a call comes from. -/
inductive AuthSettings where
  | none
  /-- A token or where it is found. -/
  | static (token : String)
  | clientCredentials (credentials : ClientCredentials)
deriving DecidableEq, Repr

/-- What the settings say. -/
structure Settings where
  directorName : String
  server : ServerSettings
  auth : AuthSettings
  /-- The connection to the database of the ledger, or where it is found; without one
  the ledger is kept in memory. -/
  database : Option String
deriving DecidableEq, Repr

/-- Settings as they are written. -/
structure SettingsManifest where
  apiVersion : String
  kind : String
  name : String
  /-- Labels in ascending order of their keys. -/
  labels : Option (Keyed String String)
  settings : Settings
deriving DecidableEq, Repr

/-- The retries where none are chosen. -/
def RetrySettings.standard : RetrySettings := ⟨3, 1000⟩

/-- The seconds that a call may take where none are chosen. -/
def ServerSettings.standardTimeout : Nat := 30

/-- The settings where there are none. -/
def Settings.standard : Settings where
  directorName := "aegis"
  server :=
    { url := "https://127.0.0.1:8080/v1/data"
      caCertPath := none
      timeoutSecs := ServerSettings.standardTimeout
      retry := .standard }
  auth := .none
  database := none

namespace SettingsManifest

/-- The version that a manifest must have. -/
def currentVersion : String := "100monkeys.ai/v1"

/-- The kind that a manifest must have. -/
def settingsKind : String := "VariablesConfig"

/-- The manifest where there is none, named for its host. -/
def standard (host : String) : SettingsManifest :=
  { apiVersion := currentVersion, kind := settingsKind, name := host, labels := none,
    settings := .standard }

end SettingsManifest

/-! ## Writing -/

/-- A field that is left out where it has no value. -/
def Json.optionalField (name : String) (value : Option Json) : List (String × Json) :=
  match value with
  | some value => [(name, value)]
  | none => []

namespace ServerSettings

/-- Writes how the config server is reached. -/
def encode (server : ServerSettings) : Json :=
  .obj ([("url", .str server.url)] ++
    Json.optionalField "ca_cert_path" (server.caCertPath.map .str) ++
    [("timeout_secs", .int server.timeoutSecs),
      ("retry", .obj [("max_attempts", .int server.retry.maxAttempts),
        ("backoff_ms", .int server.retry.backoffMs)])])

end ServerSettings

/-- Writes where tokens come from, with the way as a field of its own. -/
def AuthSettings.encode : AuthSettings → Json
  | none => .obj [("type", .str "none")]
  | static token => .obj [("type", .str "static"), ("token", .str token)]
  | clientCredentials c =>
    .obj ([("type", .str "client_credentials"), ("token_url", .str c.tokenUrl),
      ("client_id", .str c.clientId), ("client_secret", .str c.clientSecret)] ++
      Json.optionalField "ca_cert_path" (c.caCertPath.map .str))

/-- Writes what the settings say. -/
def Settings.encode (settings : Settings) : Json :=
  .obj ([("director_name", .str settings.directorName),
      ("config_server", settings.server.encode), ("auth", settings.auth.encode)] ++
    Json.optionalField "database"
      (settings.database.map fun connection => .obj [("connection_string", .str connection)]))

/-- Writes a manifest. -/
def SettingsManifest.encode (manifest : SettingsManifest) : Json :=
  .obj [("apiVersion", .str manifest.apiVersion), ("kind", .str manifest.kind),
    ("metadata", .obj (("name", .str manifest.name) ::
      Json.optionalField "labels"
        (manifest.labels.map fun labels => .obj (labels.map fun (key, text) => (key, .str text))))),
    ("spec", manifest.settings.encode)]

/-! ## Reading -/

section Decoding

variable {ν : Type} (format : DataFormat ν)

/-- Reads a number below a limit. -/
def DataFormat.naturalBelow? (limit : Nat) (value : ν) : Option Nat :=
  (format.natural? value).filter (· < limit)

/-- Reads retries, both of whose fields may be missing. -/
def RetrySettings.decode? (value : ν) : Option RetrySettings := do
  let record ← format.record? ["max_attempts", "backoff_ms"] value
  return {
    maxAttempts := ← record.defaulted 0 "max_attempts" RetrySettings.standard.maxAttempts
      (format.naturalBelow? (Nat.pow 2 32))
    backoffMs := ← record.defaulted 1 "backoff_ms" RetrySettings.standard.backoffMs
      format.natural? }

/-- Reads how the config server is reached. -/
def ServerSettings.decode? (value : ν) : Option ServerSettings := do
  let record ← format.record? ["url", "ca_cert_path", "timeout_secs", "retry"] value
  return {
    url := ← record.required 0 "url" format.text?
    caCertPath := ← record.optionalIfNamed format 1 "ca_cert_path" format.text?
    timeoutSecs := ← record.defaulted 2 "timeout_secs" ServerSettings.standardTimeout
      format.natural?
    retry := ← record.defaulted 3 "retry" RetrySettings.standard (RetrySettings.decode? format) }

/-- The text of a field whose kind is not known beforehand. -/
def AuthSettings.text? (value : ν) : Option String :=
  (format.json? value).bind Json.text?

/-- The text or null of a field whose kind is not known beforehand. -/
def AuthSettings.textOrNull? (value : ν) : Option (Option String) :=
  match format.json? value with
  | some .null => some .none
  | some (.str text) => some (some text)
  | _ => .none

/-- The fields of all ways to come by a token, behind the one that names the way. -/
def AuthSettings.fieldNames : List String :=
  ["type", "token_url", "client_id", "client_secret", "ca_cert_path", "token"]

/-- Reads where tokens come from. Every field must be a value of a standard kind. -/
def AuthSettings.decode? (value : ν) : Option AuthSettings := do
  let _ ← format.json? value
  let record ← format.record? fieldNames value
  let fits (count : Nat) : Bool := match record with
    | .named _ => true
    | .placed items => items.length ≤ count + 1
  match ← record.required 0 "type" format.text? with
  | "none" => if fits 0 then return .none else failure
  | "static" =>
    if fits 1 then return .static (← record.required 1 "token" (text? format)) else failure
  | "client_credentials" =>
    if fits 4 then
      return .clientCredentials {
        tokenUrl := ← record.required 1 "token_url" (text? format)
        clientId := ← record.required 2 "client_id" (text? format)
        clientSecret := ← record.required 3 "client_secret" (text? format)
        caCertPath := ← record.defaulted 4 "ca_cert_path" .none (textOrNull? format) }
    else failure
  | _ => failure

/-- Reads the connection to a database. -/
def Settings.decodeDatabase? (value : ν) : Option String := do
  let record ← format.record? ["connection_string"] value
  record.required 0 "connection_string" format.text?

/-- Reads what the settings say. -/
def Settings.decode? (value : ν) : Option Settings := do
  let record ← format.record? ["director_name", "config_server", "auth", "database"] value
  return {
    directorName := ← record.required 0 "director_name" format.text?
    server := ← record.required 1 "config_server" (ServerSettings.decode? format)
    auth := ← record.defaulted 2 "auth" .none (AuthSettings.decode? format)
    database := ← record.optionalIfNamed format 3 "database" (decodeDatabase? format) }

/-- Reads labels, the last one of a repeated key. -/
def SettingsManifest.decodeLabels? (value : ν) : Option (Keyed String String) := do
  let entries ← format.entries? value
  let labels ← entries.mapM fun entry => (format.text? entry.2).map fun text => (entry.1, text)
  return Keyed.ordered labels

/-- Reads the name and the labels of a manifest. -/
def SettingsManifest.decodeMetadata? (value : ν) :
    Option (String × Option (Keyed String String)) := do
  let record ← format.record? ["name", "labels"] value
  return (← record.required 0 "name" format.text?,
    ← record.optionalIfNamed format 1 "labels" (decodeLabels? format))

/-- Reads a manifest. -/
def SettingsManifest.decode? (value : ν) : Option SettingsManifest := do
  let record ← format.record? ["apiVersion", "kind", "metadata", "spec"] value
  let metadata ← record.required 2 "metadata" (decodeMetadata? format)
  return {
    apiVersion := ← record.required 0 "apiVersion" format.text?
    kind := ← record.required 1 "kind" format.text?
    name := metadata.1
    labels := metadata.2
    settings := ← record.required 3 "spec" (Settings.decode? format) }

end Decoding

end ManifestVariables
