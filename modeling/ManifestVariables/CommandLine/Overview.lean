import ManifestVariables.Settings.Discovery

/-!
# Settings shown to a reader

The overview of settings leaves out all secrets. The places where settings are
looked for can be shown before it.
-/

namespace ManifestVariables.SettingsManifest

/-- Lines of text, each ended. -/
def ofLines (lines : List String) : String := String.join (lines.map (· ++ "\n"))

/-- How tokens are come by. -/
def authLines : AuthSettings → List String
  | .none => ["  Type: none"]
  | .static _ => ["  Type: static token"]
  | .clientCredentials client =>
    ["  Type: client credentials", "  Token URL: " ++ client.tokenUrl,
      "  Client: " ++ client.clientId]

/-- What the settings say. -/
def overview (manifest : SettingsManifest) : String :=
  let settings := manifest.settings
  let server := settings.server
  let certificates := server.caCertPath.getD "(platform roots)"
  let storage := if settings.database.isSome then "PostgreSQL" else "in-memory"
  ofLines (
    ["Current configuration:", "", "Director:", "  Name: " ++ settings.directorName,
      "  Config: " ++ manifest.name, "", "Config Server:", "  URL: " ++ server.url,
      "  CA bundle: " ++ certificates, s!"  Timeout: {server.timeoutSecs}s",
      s!"  Retry: {server.retry.maxAttempts} attempts, {server.retry.backoffMs}ms backoff", "",
      "Authentication:"] ++
    authLines settings.auth ++ ["", "Ledger:", "  Storage: " ++ storage, ""])

/-- The places where settings are looked for, the one that was asked for first. -/
def placesOverview (environment : Environment) (path : Option String) : String :=
  let unset := "(not set)"
  ofLines ["Configuration discovery paths:", "  1. --config flag: " ++ path.getD unset,
    "  2. " ++ pathVariable ++ ": " ++ (environment.get? pathVariable).getD unset,
    "  3. " ++ localPath, "  4. ~/.aegis/variables.yaml", "  5. " ++ systemPath, ""]

end ManifestVariables.SettingsManifest
