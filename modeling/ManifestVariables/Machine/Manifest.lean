import ManifestVariables.Machine.Basic
import ManifestVariables.Text.Quoted
import ManifestVariables.Yaml.Format

/-!
# Manifests in files

A manifest is a tree written in YAML, of which JSON is a part.
-/

namespace ManifestVariables

/-- Why a manifest could not be loaded. -/
inductive ManifestError where
  | unreadable (path : String) (cause : FileError)
  | malformed (path : String)
deriving DecidableEq, Repr

namespace ManifestError

/-- The text shown for a manifest that could not be loaded. -/
def message : ManifestError → String
  | unreadable path _ => "Failed to read manifest " ++ Quoted.path path
  | malformed path => "Failed to parse manifest " ++ Quoted.path path

/-- What lies behind the failure. -/
def cause : ManifestError → String
  | unreadable _ cause => cause.message
  | malformed _ => "the text is not a YAML document"

end ManifestError

namespace Manifest

/-- Reads a manifest as it is written. -/
def parse? (text : String) : Option Json :=
  (Yaml.Node.parse? text).bind Yaml.Node.json?

/-- Reads the manifest in a file. -/
def load (path : String) : Machine.Action (Except ManifestError Json) :=
  (Machine.read path).andThen fun
    | .error cause => .done (.error (.unreadable path cause))
    | .ok text => .done (match parse? text with
      | some tree => .ok tree
      | none => .error (.malformed path))

end Manifest

end ManifestVariables
