import ManifestVariables.Tree.Site

/-!
# The offline check

`Tree.check` looks at every placeholder of a manifest without asking a config
server: each is either a name or a problem at its location, and where names must
be absolute all relative ones together are one more problem at the end.
-/

namespace ManifestVariables

/-- What a check found. -/
structure CheckReport where
  names : List String
  problems : List String
deriving DecidableEq, Repr

/-- The name in a site's placeholder, or the problem with it at its location. -/
def Site.check (site : Site) : Except String String :=
  match Placeholder.name site.placeholder with
  | .ok name => .ok name
  | .error e => .error s!"{site.path.location}: {e.message}"

/-- Adds a site to a report. -/
def CheckReport.add (report : CheckReport) (site : Site) : CheckReport :=
  match site.check with
  | .ok name => { report with names := report.names ++ [name] }
  | .error problem => { report with problems := report.problems ++ [problem] }

namespace Tree

/-- Checks the placeholders of a manifest. -/
def check (tree : Json) (ignored : List SubtreePattern) (mustBeAbsolute : Bool) : CheckReport :=
  let report := (sites tree ignored).foldl CheckReport.add ⟨[], []⟩
  if mustBeAbsolute then
    match Name.requireAbsolute (rawNames tree ignored) with
    | .ok _ => report
    | .error names =>
      { report with problems := report.problems ++ [Name.relativeNamesMessage names] }
  else report

end Tree

end ManifestVariables
