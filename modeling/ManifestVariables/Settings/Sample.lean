/-!
# Sample settings

A manifest of settings to start from. What is left out of it stands in comments.
-/

namespace ManifestVariables.SettingsManifest

/-- The text of the sample settings. -/
def sample : String := "\n".intercalate [
  "# AEGIS deployment variables configuration",
  "apiVersion: 100monkeys.ai/v1",
  "kind: VariablesConfig",
  "metadata:",
  "  name: director-1",
  "spec:",
  "  # First segment of every qualified variable name: /<director>/<deployment>/<name>",
  "  director_name: aegis",
  "",
  "  config_server:",
  "    url: https://127.0.0.1:8080/v1/data",
  "    # ca_cert_path: /etc/aegis/config-server-ca.pem",
  "    timeout_secs: 30",
  "    retry:",
  "      max_attempts: 3",
  "      backoff_ms: 1000",
  "",
  "  auth:",
  "    type: none",
  "    # type: static",
  "    # token: env:AEGIS_CONFIG_SERVER_TOKEN",
  "    #",
  "    # type: client_credentials",
  "    # token_url: https://127.0.0.1:8443/oauth/token",
  "    # client_id: director_config_server",
  "    # client_secret: env:AEGIS_CONFIG_SERVER_CLIENT_SECRET",
  "",
  "  # database:",
  "  #   connection_string: env:AEGIS_VARIABLES_DATABASE_URL",
  ""]

end ManifestVariables.SettingsManifest
