import ManifestVariables.Proofs.Interpolation.Stability

/-!
# What fetching a value fails with

Values are fetched in three ways, and each of them fails in the same two: with a text
that starts by naming the variable, or with an error of what surrounds the resolution
(`Interpolation.failsOnly_fetcher`). The errors that concern names and placeholders of the
tree come from the resolution itself and never from a fetch.
-/

namespace ManifestVariables.Interpolation

open Program Engine

variable {name : String} {transcript : List (Exchange Needs)}

/-- The ways in which values are fetched. -/
inductive Fetcher : (String → Fetch Json) → Prop where
  | latest : Fetcher fetchLatest
  | pinned (set : VariableSet) : Fetcher (fetchPinned set)
  | linked (consumer provider : VariableSet) : Fetcher (fetchLinked consumer provider)

/-- Errors of the config server, the ledger and the versions that it has, rather than of a
tree. -/
inductive OfSurroundings : ResolutionError → Prop where
  | unrecorded (missing : UnrecordedName) : OfSurroundings (.unrecorded missing)
  | transport (failure : TransportError) : OfSurroundings (.transport failure)
  | store (failure : StoreError) : OfSurroundings (.store failure)

/-- What the fetch of a variable fails with. -/
inductive FailedFetch (name : String) : FetchFailure → Prop where
  | reported {text : String} (names : Client.Names name text) : FailedFetch name (.reported text)
  | fatal {error : ResolutionError} (outer : OfSurroundings error) :
      FailedFetch name (.fatal error)

theorem failedFetch_of_failedLookup {outcome : Outcome} {failure : ServerError}
    (failed : Client.FailedLookup name outcome failure) :
    FailedFetch name (FetchFailure.ofServer failure) := by
  cases failed with
  | transport => exact .fatal (.transport _)
  | notFound names => exact .reported names
  | fetch names => exact .reported names

theorem failsOnly_fromStore {α : Type} (operation : Store.Operation α) :
    FailsOnly (FailedFetch name) (fromStore operation) :=
  failsOnly_ofProgram fun _ failure _ => .fatal (.store failure)

theorem failsOnly_getByName :
    FailsOnly (FailedFetch name) (fromServer (Client.getByName name)) := by
  refine failsOnly_ofProgram fun transcript failure ended => ?_
  obtain ⟨outcome, _, read⟩ := ends_call_iff.mp ended
  exact failedFetch_of_failedLookup (Client.failedLookup_of_readByName read.symm)

theorem failsOnly_fetchVersion (id : VariableId) :
    FailsOnly (FailedFetch name) (fetchVersion name id) := by
  refine .bind (failsOnly_ofProgram fun transcript failure ended => ?_) fun _ => failsOnly_pure _
  obtain ⟨outcome, _, read⟩ := ends_call_iff.mp ended
  exact failedFetch_of_failedLookup (Client.failedLookup_of_readById read.symm)

theorem failsOnly_fetchLatest : FailsOnly (FailedFetch name) (fetchLatest name) :=
  failsOnly_getByName.bind fun _ => failsOnly_pure _

theorem failsOnly_fetchPinned (set : VariableSet) :
    FailsOnly (FailedFetch name) (fetchPinned set name) := by
  refine (failsOnly_fromStore _).bind fun found => ?_
  match found with
  | some id => exact failsOnly_fetchVersion id
  | none =>
    dsimp only
    split
    · exact failsOnly_throw (.fatal (.unrecorded _))
    · refine failsOnly_getByName.bind fun latest => (failsOnly_fromStore _).bind fun stored => ?_
      split
      · exact failsOnly_pure _
      · exact failsOnly_fetchVersion stored

theorem failsOnly_fetchLinked (consumer provider : VariableSet) :
    FailsOnly (FailedFetch name) (fetchLinked consumer provider name) := by
  refine (failsOnly_fromStore _).bind fun found => ?_
  match found with
  | some id => exact failsOnly_fetchVersion id
  | none =>
    dsimp only
    split
    · exact failsOnly_throw (.fatal (.unrecorded _))
    · refine (failsOnly_fromStore _).bind fun held => ?_
      match held with
      | none => exact failsOnly_throw (.fatal (.unrecorded _))
      | some id =>
        exact (failsOnly_fromStore _).bind fun stored => failsOnly_fetchVersion stored

/-- However a value is fetched, a failure to collect names its variable, and a fatal one is
of the surroundings. -/
theorem failsOnly_fetcher {fetch : String → Fetch Json} (fetcher : Fetcher fetch) (name : String) :
    FailsOnly (FailedFetch name) (fetch name) := by
  cases fetcher with
  | latest => exact failsOnly_fetchLatest
  | pinned set => exact failsOnly_fetchPinned set
  | linked consumer provider => exact failsOnly_fetchLinked consumer provider

end ManifestVariables.Interpolation
