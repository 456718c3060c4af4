import ManifestVariables.Engine
import ManifestVariables.Resolution.Basic

/-!
# Interpolating manifests

A manifest is resolved in one of three ways. `Interpolation.latest` takes the
latest version of every variable. `Interpolation.pinned` takes the versions that a
variable set records, and while the set is writable records the latest version of
a name that is new to it. `Interpolation.linked` resolves what another deployment
provides, and records the provider's versions with the consumer.
-/

namespace ManifestVariables

/-- How a manifest is to be interpolated. -/
structure InterpolationOptions where
  /-- Relative names are refused before anything is asked for. -/
  mustBeAbsolute : Bool
  ignored : List SubtreePattern
  /-- The deployment that relative names belong to. Without one they belong to the
  deployment of the variable set, or are taken as they are where there is none. -/
  deployment : Option String

namespace Interpolation

open Engine

/-- Fetches one value. -/
abbrev Fetch := Action FetchFailure

/-- A store operation, whose failures are fatal. -/
def fromStore {α : Type} (operation : Store.Operation α) : Fetch α :=
  Action.ofProgram (fun failure => .fatal (.store failure)) (ofStore operation)

/-- A lookup. -/
def fromServer (lookup : Program Client.Calls (Except ServerError Variable)) : Fetch Variable :=
  Action.ofProgram FetchFailure.ofServer (ofClient lookup)

/-- The value of the latest version of a name. -/
def fetchLatest (name : String) : Fetch Json := do
  return (← fromServer (Client.getByName name)).value

/-- The value of one version of a name. -/
def fetchVersion (name : String) (id : VariableId) : Fetch Json := do
  return (← fromServer (Client.getById name id)).value

/-- The value of the version that a set records; a writable set that has none
records the latest one. -/
def fetchPinned (set : VariableSet) (name : String) : Fetch Json := do
  match ← fromStore (Store.find name set) with
  | some id => fetchVersion name id
  | none =>
    if !set.writable then
      throw (.fatal (.unrecorded (.inSet name set.deployment)))
    else
      let latest ← fromServer (Client.getByName name)
      let stored ← fromStore (Store.add name latest.id set)
      if stored = latest.id then return latest.value else fetchVersion name stored

/-- The value of the version that the consumer's set records; a writable set that
has none records the one of the provider's set. -/
def fetchLinked (consumer provider : VariableSet) (name : String) : Fetch Json := do
  match ← fromStore (Store.find name consumer) with
  | some id => fetchVersion name id
  | none =>
    if !consumer.writable then
      throw (.fatal (.unrecorded (.inConsumer name consumer.deployment)))
    else
      match ← fromStore (Store.find name provider) with
      | none => throw (.fatal (.unrecorded (.inProvider name provider.deployment)))
      | some id =>
        let stored ← fromStore (Store.addLink name id provider.deployment consumer)
        fetchVersion name stored

/-- Resolves a tree, fetching values as given. -/
def resolveWith (fetch : String → Fetch Json) (tree : Json) (ignored : List SubtreePattern)
    (qualify : String → String) : Program Needs (Except ResolutionError Json) :=
  (Resolution.resolve tree ignored qualify).translate fetch

/-- Refuses relative names where they must be absolute, and goes on otherwise. -/
def checkAbsolute (tree : Json) (options : InterpolationOptions)
    (next : Program Needs (Except ResolutionError Json)) :
    Program Needs (Except ResolutionError Json) :=
  if options.mustBeAbsolute then
    match Name.requireAbsolute (Tree.rawNames tree options.ignored) with
    | .ok _ => next
    | .error names => .done (.error (.relativeNames names))
  else next

/-- Qualifies names under a deployment if there is one. -/
def qualifier (director : String) (deployment : Option String) (name : String) : String :=
  match deployment with
  | some deployment => Name.qualify director deployment name
  | none => name

/-- The tree with the latest values. -/
def latest (director : String) (tree : Json) (options : InterpolationOptions) :
    Program Needs (Except ResolutionError Json) :=
  checkAbsolute tree options
    (resolveWith fetchLatest tree options.ignored (qualifier director options.deployment))

/-- The tree with the values of the versions that a set records. -/
def pinned (director : String) (tree : Json) (set : VariableSet)
    (options : InterpolationOptions) : Program Needs (Except ResolutionError Json) :=
  checkAbsolute tree options
    (resolveWith (fetchPinned set) tree options.ignored
      (qualifier director (some (options.deployment.getD set.deployment))))

/-- Properties of a link with the values of the provider. -/
def linked (director : String) (tree : Json) (consumer provider : VariableSet)
    (options : InterpolationOptions) : Program Needs (Except ResolutionError Json) :=
  resolveWith (fetchLinked consumer provider) tree options.ignored
    (Name.qualify director provider.deployment)

/-- Whether two trees with their sets give different results. -/
def changed (director : String) (previous : Json) (previousSet : VariableSet) (next : Json)
    (nextSet : VariableSet) (options : InterpolationOptions) :
    Program Needs (Except ResolutionError Bool) :=
  ExceptT.run (m := Program Needs) do
    let before ← ExceptT.mk (pinned director previous previousSet options)
    let after ← ExceptT.mk (pinned director next nextSet options)
    return !before.same after

end Interpolation

end ManifestVariables
