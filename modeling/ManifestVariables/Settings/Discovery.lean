import ManifestVariables.Settings.Environment
import ManifestVariables.Machine.Basic
import ManifestVariables.Yaml.Format

/-!
# Finding the settings

The settings are looked for in four places, of which the first that is there
counts: the path in the environment, the working directory, the home directory,
and the directory of the system. Settings that were asked for by path must be
readable; where none are found there are standard ones.
-/

namespace ManifestVariables.SettingsManifest

open Machine

/-- Why no settings could be read. -/
inductive LoadError where
  | file (cause : FileError)
  /-- The text is not the manifest of settings. -/
  | malformed
deriving DecidableEq, Repr

/-- The text shown for settings that could not be read. -/
def LoadError.message : LoadError → String
  | file cause => cause.message
  | malformed => "the text is not a manifest of settings"

/-- The variable that names a path. -/
def pathVariable : String := "AEGIS_VARIABLES_CONFIG_PATH"

/-- The path in the working directory. -/
def localPath : String := "./aegis-variables.yaml"

/-- The path in the directory of the system. -/
def systemPath : String := "/etc/aegis/variables.yaml"

/-- A path below a directory. -/
def below (directory path : String) : String :=
  if directory.endsWith "/" then directory ++ path else directory ++ "/" ++ path

/-- The places to look in, in order. -/
def places (environment : Environment) : List String :=
  (environment.get? pathVariable).toList ++ [localPath] ++
    (environment.home?.map (below · ".aegis/variables.yaml")).toList ++ [systemPath]

/-- The first place where there is something. -/
def firstPresent : List String → Action (Option String)
  | [] => .done none
  | place :: rest =>
    (isPresent place).andThen fun found =>
      if found then .done (some place) else firstPresent rest

/-- The place where the settings are found. -/
def discover (environment : Environment) : Action (Option String) :=
  firstPresent (places environment)

/-- Reads settings as they are written. -/
def parse (text : String) : Except LoadError SettingsManifest :=
  match (Yaml.Node.parse? text).bind (decode? Yaml.Node.format) with
  | some manifest => .ok manifest
  | none => .error .malformed

/-- Reads the settings in a file. -/
def load (path : String) : Action (Except LoadError SettingsManifest) :=
  (read path).andThen fun
    | .error cause => .done (.error (.file cause))
    | .ok text => .done (parse text)

/-- The settings at a path, or else those that are found, or else the standard ones;
in each case with what the environment replaces. -/
def find (environment : Environment) (path : Option String) :
    Action (Except LoadError SettingsManifest) :=
  let overriding (loaded : Except LoadError SettingsManifest) :=
    loaded.map (·.overridden environment)
  match path with
  | some path => (load path).andThen fun loaded => .done (overriding loaded)
  | none =>
    (discover environment).andThen fun
      | some path => (load path).andThen fun loaded => .done (overriding loaded)
      | none => .done (overriding (.ok (forHost environment)))

end ManifestVariables.SettingsManifest
