import ManifestVariables.Variable.Declaration

/-!
# Addresses of links

A certificate can take the addresses of consumed links as its names. Where a link
leads is looked up by the consuming deployment and the name of the link.
-/

namespace ManifestVariables

/-- Why a link has no address. -/
inductive LinkError where
  | unknownLink (link variableName deployment : String)
  | resolution (link reason : String)
deriving DecidableEq, Repr

/-- The text shown for a link without address. -/
def LinkError.message : LinkError → String
  | unknownLink link variableName deployment =>
    s!"Link '{link}' consumed by variable '{variableName}' could not be found in deployment '{deployment}'"
  | resolution link reason => s!"Failed to resolve address for link '{link}': {reason}"

/-- Addresses by consuming variable, deployment and link, of the link's alias or of
its instance group. -/
abbrev LinkAddresses :=
  (variableName deployment : String) → ConsumedLink → (useAlias : Bool) → Except LinkError String

/-- Where a link leads. -/
structure LinkTarget where
  instanceGroup : String
  network : String
  providerDeployment : String
  /-- The alias under which the providers of the link are known together. -/
  linkGroup : String
deriving DecidableEq, Repr

/-- The known links by consuming deployment and name. -/
structure LinkTable where
  rootDomain : String
  targets : Keyed (String × String) LinkTarget
deriving DecidableEq, Repr

namespace LinkTable

/-- The domain under which addresses stand where none is chosen. -/
def defaultRootDomain : String := "bosh"

/-- The table with a link known. -/
def register (table : LinkTable) (deployment link : String) (target : LinkTarget) : LinkTable :=
  { table with targets := Keyed.put table.targets (deployment, link) target }

/-- The addresses of the known links. -/
def addresses (table : LinkTable) : LinkAddresses := fun variableName deployment link useAlias =>
  match Keyed.get? table.targets (deployment, link.source) with
  | none => .error (.unknownLink link.source variableName deployment)
  | some target =>
    let group := if useAlias then target.linkGroup else target.instanceGroup
    .ok s!"q-s0.{group}.{target.network}.{target.providerDeployment}.{table.rootDomain}"

end LinkTable

end ManifestVariables
