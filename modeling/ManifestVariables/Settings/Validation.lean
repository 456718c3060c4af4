import ManifestVariables.Settings.Basic

/-!
# Checking settings

`SettingsManifest.validate` reports the first rule that a manifest breaks.
-/

namespace ManifestVariables

/-- A rule that a manifest breaks. -/
inductive SettingsError where
  | version (found : String)
  | kind (found : String)
  | emptyName
  | directorName (found : String)
  | serverUrl (found : String)
  | noAttempts
  | emptyTokenUrl
  | emptyClientId
deriving DecidableEq, Repr

/-- The text shown for a broken rule. -/
def SettingsError.message : SettingsError → String
  | version found =>
    let wanted := SettingsManifest.currentVersion
    s!"Invalid apiVersion: '{found}'. Must be '{wanted}'"
  | kind found =>
    let wanted := SettingsManifest.settingsKind
    s!"Invalid kind: '{found}'. Must be '{wanted}'"
  | emptyName => "metadata.name cannot be empty"
  | directorName found =>
    s!"spec.director_name must be a non-empty name without '/': '{found}'"
  | serverUrl found => s!"spec.config_server.url must be an http(s) URL: '{found}'"
  | noAttempts => "spec.config_server.retry.max_attempts must be at least 1"
  | emptyTokenUrl => "spec.auth.token_url cannot be empty"
  | emptyClientId => "spec.auth.client_id cannot be empty"

/-- Checks where tokens come from. -/
def AuthSettings.validate : AuthSettings → Except SettingsError Unit
  | clientCredentials c =>
    if c.tokenUrl.isEmpty then .error .emptyTokenUrl
    else if c.clientId.isEmpty then .error .emptyClientId
    else .ok ()
  | _ => .ok ()

/-- Whether a text begins like the URL of a web server. -/
def ServerSettings.isWebUrl (url : String) : Bool :=
  "https://".toList.isPrefixOf url.toList || "http://".toList.isPrefixOf url.toList

/-- Checks a manifest, reporting the first rule that it breaks. -/
def SettingsManifest.validate (manifest : SettingsManifest) : Except SettingsError Unit :=
  let settings := manifest.settings
  let director := settings.directorName
  if manifest.apiVersion ≠ currentVersion then .error (.version manifest.apiVersion)
  else if manifest.kind ≠ settingsKind then .error (.kind manifest.kind)
  else if manifest.name.isEmpty then .error .emptyName
  else if director.isEmpty || director.toList.contains '/' then .error (.directorName director)
  else if !ServerSettings.isWebUrl settings.server.url then .error (.serverUrl settings.server.url)
  else if settings.server.retry.maxAttempts = 0 then .error .noAttempts
  else settings.auth.validate

end ManifestVariables
