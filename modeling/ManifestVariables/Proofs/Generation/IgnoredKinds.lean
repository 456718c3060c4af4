import ManifestVariables.Proofs.Generation.Parameters

/-!
# Consumed links of other kinds

A certificate takes the addresses of consumed links of two kinds. A link of any other kind adds
nothing to its parameters, so one with an address may be left out
(`Generation.runAlike_of_addressed`). But it is looked up all the same, so one without an address
ends the generation of the certificate. Generating a declaration and generating it without its links
of other kinds come to the same exactly where the first of all its links without an address fails
like the first of those that are left (`Generation.generate_supported_iff`).
-/

namespace ManifestVariables

/-- Whether a certificate takes the addresses of consumed links of a kind. -/
def ConsumedLink.takes (kind : String) : Bool :=
  kind = "alternative_name" || kind = "common_name"

/-- The declaration without its consumed links of other kinds. -/
def Declaration.supported (declaration : Declaration) : Declaration :=
  { declaration with
    consumes := declaration.consumes.map fun links =>
      links.filter fun entry => ConsumedLink.takes entry.1 }

theorem Declaration.links_supported (declaration : Declaration) :
    declaration.supported.links =
      declaration.links.filter fun entry => ConsumedLink.takes entry.1 := by
  unfold links supported
  cases declaration.consumes <;> rfl

namespace LinkAddresses

variable {addresses : LinkAddresses} {name deployment : String} {useAliases : Bool}
  {kind : String} {link : ConsumedLink} {links : List (String × ConsumedLink)}

/-- Why the first of some links without an address has none. -/
def failure? (addresses : LinkAddresses) (name deployment : String) (useAliases : Bool)
    (links : List (String × ConsumedLink)) : Option LinkError :=
  links.findSome? fun entry =>
    match addresses name deployment entry.2 useAliases with
    | .error failure => some failure
    | .ok _ => none

theorem failure?_cons_of_error {failure : LinkError}
    (looked : addresses name deployment link useAliases = .error failure) :
    addresses.failure? name deployment useAliases ((kind, link) :: links) = some failure := by
  simp [failure?, looked]

theorem failure?_cons_of_ok {address : String}
    (looked : addresses name deployment link useAliases = .ok address) :
    addresses.failure? name deployment useAliases ((kind, link) :: links) =
      addresses.failure? name deployment useAliases links := by
  simp [failure?, looked]

/-- If all links have addresses, so have some of them. -/
theorem failure?_filter_eq_none (chosen : String × ConsumedLink → Bool)
    (none : addresses.failure? name deployment useAliases links = none) :
    addresses.failure? name deployment useAliases (links.filter chosen) = .none := by
  rw [failure?, List.findSome?_eq_none_iff] at none ⊢
  exact fun entry member => none entry (List.mem_of_mem_filter member)

/-- Links with addresses may be left out. -/
theorem failure?_filter {chosen : String × ConsumedLink → Bool}
    (addressed : ∀ entry ∈ links, chosen entry = false →
      ∃ address, addresses name deployment entry.2 useAliases = .ok address) :
    addresses.failure? name deployment useAliases (links.filter chosen) =
      addresses.failure? name deployment useAliases links := by
  induction links with
  | nil => rfl
  | cons entry rest ih =>
    obtain ⟨kind, link⟩ := entry
    obtain ⟨here, later⟩ := List.forall_mem_cons.mp addressed
    cases looked : addresses name deployment link useAliases with
    | error failure =>
      have kept : chosen (kind, link) = true := by
        rw [← Bool.not_eq_false]
        intro leftOut
        obtain ⟨address, found⟩ := here leftOut
        cases looked.symm.trans found
      rw [List.filter_cons_of_pos kept, failure?_cons_of_error looked,
        failure?_cons_of_error looked]
    | ok address =>
      rw [List.filter_cons, failure?_cons_of_ok looked, ← ih later]
      split
      · exact failure?_cons_of_ok looked
      · rfl

end LinkAddresses

namespace Generation

open Program Engine

variable {context : GenerationContext} {set : VariableSet} {flags : GenerationFlags}
  {declaration : Declaration} {addresses : LinkAddresses} {deployment kind address : String}
  {useAliases : Bool} {links : List (String × ConsumedLink)} {options : Keyed String Json}
  {failure : LinkError}

theorem addAddress_of_not_takes (other : ConsumedLink.takes kind = false) :
    addAddress kind address options = options := by
  obtain ⟨first, second⟩ : kind ≠ "alternative_name" ∧ kind ≠ "common_name" := by
    simpa [ConsumedLink.takes] using other
  rw [addAddress, if_neg first, if_neg second]

/-- The first link without an address ends the lookup of addresses. -/
theorem addAddresses_of_failure
    (failed : addresses.failure? declaration.name deployment useAliases links = some failure) :
    addAddresses addresses declaration deployment useAliases links options = .error failure := by
  induction links generalizing options with
  | nil => cases failed
  | cons entry rest ih =>
    obtain ⟨kind, link⟩ := entry
    cases looked : addresses declaration.name deployment link useAliases with
    | error first =>
      rw [LinkAddresses.failure?_cons_of_error looked] at failed
      cases failed
      simp only [addAddresses, looked]
    | ok address =>
      rw [LinkAddresses.failure?_cons_of_ok looked] at failed
      simp only [addAddresses, looked]
      exact ih failed

/-- Where all links have addresses, those of other kinds may be left out. -/
theorem addAddresses_filter (options : Keyed String Json)
    (addressed : addresses.failure? declaration.name deployment useAliases links = none) :
    ∃ parameters,
      addAddresses addresses declaration deployment useAliases links options = .ok parameters ∧
      addAddresses addresses declaration.supported deployment useAliases
        (links.filter fun entry => ConsumedLink.takes entry.1) options = .ok parameters := by
  induction links generalizing options with
  | nil => exact ⟨options, rfl, rfl⟩
  | cons entry rest ih =>
    obtain ⟨kind, link⟩ := entry
    cases looked : addresses declaration.name deployment link useAliases with
    | error failure =>
      rw [LinkAddresses.failure?_cons_of_error looked] at addressed
      cases addressed
    | ok address =>
      rw [LinkAddresses.failure?_cons_of_ok looked] at addressed
      have lookedToo : addresses declaration.supported.name deployment link useAliases =
          .ok address := looked
      by_cases takes : ConsumedLink.takes kind = true
      · simp only [List.filter_cons, takes, if_true, addAddresses, looked, lookedToo]
        exact ih _ addressed
      · rw [Bool.not_eq_true] at takes
        simp only [List.filter_cons, takes, Bool.false_eq_true, if_false, addAddresses, looked,
          addAddress_of_not_takes takes]
        exact ih _ addressed

/-- Why the first consumed link of a declaration without an address has none. -/
def linkFailure? (context : GenerationContext) (deployment : String) (flags : GenerationFlags)
    (declaration : Declaration) : Option LinkError :=
  context.links.failure? declaration.name deployment flags.useLinkAliases declaration.links

theorem linkFailure?_supported_eq_none
    (addressed : linkFailure? context deployment flags declaration = none) :
    linkFailure? context deployment flags declaration.supported = none := by
  unfold linkFailure?
  rw [Declaration.links_supported]
  exact LinkAddresses.failure?_filter_eq_none _ addressed

theorem linkFailure?_supported
    (addressed : ∀ entry ∈ declaration.links, ConsumedLink.takes entry.1 = false →
      ∃ address, context.links declaration.name deployment entry.2 flags.useLinkAliases =
        .ok address) :
    linkFailure? context deployment flags declaration.supported =
      linkFailure? context deployment flags declaration := by
  unfold linkFailure?
  rw [Declaration.links_supported]
  exact LinkAddresses.failure?_filter addressed

theorem requestOf_of_linkFailure? (certificate : declaration.type = "certificate")
    (failed : linkFailure? context deployment flags declaration = some failure) :
    requestOf context deployment flags declaration = .error failure := by
  rw [requestOf_of_eq certificate, addAddresses_of_failure failed]
  rfl

/-- Where all links have addresses, a certificate is asked for with the same parameters when its
links of other kinds are left out. -/
theorem exists_requestOf (certificate : declaration.type = "certificate")
    (addressed : linkFailure? context deployment flags declaration = none) :
    ∃ request, requestOf context deployment flags declaration = .ok request ∧
      requestOf context deployment flags declaration.supported = .ok request := by
  have certificateToo : declaration.supported.type = "certificate" := certificate
  obtain ⟨parameters, added, without⟩ := addAddresses_filter
    (qualifyAuthority context.director deployment declaration.options) addressed
  refine ⟨requestWith context deployment flags declaration parameters, ?_, ?_⟩
  · rw [requestOf_of_eq certificate, added]
    rfl
  · rw [← Declaration.links_supported] at without
    exact (requestOf_of_eq certificateToo).trans (congrArg (Except.map _) without)

/-- A declared variable is asked for in the same way without its links of other kinds, unless it is a
certificate and the first failure among its links is theirs. -/
theorem requestOf_supported
    (unchanged : declaration.type = "certificate" →
      linkFailure? context deployment flags declaration =
        linkFailure? context deployment flags declaration.supported) :
    requestOf context deployment flags declaration =
      requestOf context deployment flags declaration.supported := by
  by_cases certificate : declaration.type = "certificate"
  · have certificateToo : declaration.supported.type = "certificate" := certificate
    have same := unchanged certificate
    cases found : linkFailure? context deployment flags declaration with
    | none =>
      obtain ⟨request, asked, askedToo⟩ := exists_requestOf certificate found
      rw [asked, askedToo]
    | some failure =>
      rw [requestOf_of_linkFailure? certificate found]
      exact (requestOf_of_linkFailure? certificateToo (same.symm.trans found)).symm
  · have otherToo : declaration.supported.type ≠ "certificate" := certificate
    exact (requestOf_of_ne certificate).trans (requestOf_of_ne otherToo).symm

section Run

variable {σ : Type} {answer : (need : Need) → σ → need.Reply × σ} {state : σ}

/-- A certificate that has to be generated and has a link without an address is not asked for, and
nothing is recorded or told. -/
theorem IsDue.unaddressed (certificate : declaration.type = "certificate")
    (due : IsDue answer context set flags declaration state)
    (failed : linkFailure? context set.deployment flags declaration = some failure) :
    Idle (Program.transcript answer (generate context set flags declaration) state) ∧
      (Program.run answer (generate context set flags declaration) state).1 =
        .error (.link failure) := by
  obtain ⟨split, ran⟩ := due.run_eq
  obtain ⟨silent, result⟩ := of_ends_generateNew_of_error
    (requestOf_of_linkFailure? certificate failed) (ends_transcript (I := Needs) answer _ _)
  rw [split, silent, ran]
  exact ⟨idle_transcript_keptOf.append idle_nil, result⟩

theorem IsDue.calls_eq {request : GenerationRequest}
    (due : IsDue answer context set flags declaration state)
    (requested : requestOf context set.deployment flags declaration = .ok request) :
    calls (Program.transcript answer (generate context set flags declaration) state) =
      [.post request.encode] := by
  rw [due.run_eq.1, calls_append, idle_transcript_keptOf.calls,
    calls_of_ends_generateNew requested (ends_transcript (I := Needs) answer _ _)]
  rfl

/-- If its links of other kinds can be left out of a certificate that has to be generated, the first
failure among its links is not theirs. -/
theorem linkFailure?_of_runAlike
    (alike : RunAlike answer state (generate context set flags declaration)
      (generate context set flags declaration.supported))
    (certificate : declaration.type = "certificate")
    (due : IsDue answer context set flags declaration state) :
    linkFailure? context set.deployment flags declaration =
      linkFailure? context set.deployment flags declaration.supported := by
  have certificateToo : declaration.supported.type = "certificate" := certificate
  have dueToo : IsDue answer context set flags declaration.supported state :=
    ⟨due.valid, due.unkept⟩
  cases failed : linkFailure? context set.deployment flags declaration with
  | none => exact (linkFailure?_supported_eq_none failed).symm
  | some failure =>
    obtain ⟨idle, result⟩ := due.unaddressed certificate failed
    cases left : linkFailure? context set.deployment flags declaration.supported with
    | none =>
      obtain ⟨request, requested, _⟩ := exists_requestOf certificateToo left
      have asked := dueToo.calls_eq requested
      rw [← alike.transcript, idle.calls] at asked
      cases asked
    | some other =>
      have resultToo := (dueToo.unaddressed certificateToo left).2
      rw [← alike.run, result] at resultToo
      cases resultToo
      rfl

theorem runAlike_supported
    (unchanged : declaration.type = "certificate" →
      IsDue answer context set flags declaration state →
      linkFailure? context set.deployment flags declaration =
        linkFailure? context set.deployment flags declaration.supported) :
    RunAlike answer state (generate context set flags declaration)
      (generate context set flags declaration.supported) := by
  cases checked : Name.validate declaration.name with
  | error error =>
    have checkedToo : Name.validate declaration.supported.name = .error error := checked
    simp only [generate, checked, checkedToo]
    exact ⟨rfl, rfl⟩
  | ok _ =>
    have checkedToo : Name.validate declaration.supported.name = .ok () := checked
    have keptSame : keptOf context set flags declaration.supported =
        keptOf context set flags declaration := rfl
    rw [generate_of_valid checked, generate_of_valid checkedToo, keptSame]
    refine .bind fun kept came => ?_
    cases kept with
    | some id => rfl
    | none =>
      have same := requestOf_supported fun certificate => unchanged certificate ⟨checked, came⟩
      unfold generateNew
      rw [same]
      rfl

/-- Links of other kinds that have addresses are ignored. -/
theorem runAlike_of_addressed
    (addressed : ∀ entry ∈ declaration.links, ConsumedLink.takes entry.1 = false →
      ∃ address, context.links declaration.name set.deployment entry.2 flags.useLinkAliases =
        .ok address) :
    RunAlike answer state (generate context set flags declaration)
      (generate context set flags declaration.supported) :=
  runAlike_supported fun _ _ => (linkFailure?_supported addressed).symm

/-- Generating a declared variable comes to the same without its consumed links of other kinds just
where these do not hold up a certificate that has to be generated: where the first failure among all
links is the first one among those that are left. A failure of any link ends the generation. -/
theorem generate_supported_iff :
    (RunAlike answer state (generate context set flags declaration)
        (generate context set flags declaration.supported) ↔
      (declaration.type = "certificate" → IsDue answer context set flags declaration state →
        linkFailure? context set.deployment flags declaration =
          linkFailure? context set.deployment flags declaration.supported)) ∧
    ∀ failure, declaration.type = "certificate" →
      IsDue answer context set flags declaration state →
      linkFailure? context set.deployment flags declaration = some failure →
        Idle (Program.transcript answer (generate context set flags declaration) state) ∧
          (Program.run answer (generate context set flags declaration) state).1 =
            .error (.link failure) :=
  ⟨⟨fun alike => linkFailure?_of_runAlike alike, runAlike_supported⟩,
    fun _ certificate due failed => due.unaddressed certificate failed⟩

end Run

/-- A certificate that also consumes a link of another kind, which leads somewhere. -/
def chattyCertificate : Declaration :=
  { sampleCertificate with
    consumes := some [("alternative_name", ⟨"db_link", true⟩), ("dns", ⟨"db_link", false⟩)] }

/-- The link of another kind makes no difference. -/
theorem generate_supported_iff_chattyCertificate :
    IsDue World.answer sampleLinked (.fresh ⟨"set-1"⟩ "orders") sampleFlags chattyCertificate
        sampleWorld ∧
      linkFailure? sampleLinked "orders" sampleFlags chattyCertificate = none ∧
      RunAlike World.answer sampleWorld
        (generate sampleLinked (.fresh ⟨"set-1"⟩ "orders") sampleFlags chattyCertificate)
        (generate sampleLinked (.fresh ⟨"set-1"⟩ "orders") sampleFlags
          chattyCertificate.supported) := by
  have due : IsDue World.answer sampleLinked (.fresh ⟨"set-1"⟩ "orders") sampleFlags
      chattyCertificate sampleWorld := ⟨by decide +kernel, rfl⟩
  have addressed : linkFailure? sampleLinked "orders" sampleFlags chattyCertificate = none := by
    decide +kernel
  exact ⟨due, addressed, generate_supported_iff.1.mpr fun _ _ =>
    addressed.trans (linkFailure?_supported_eq_none addressed).symm⟩

/-- A certificate that consumes only a link of another kind, which leads nowhere. -/
def strandedCertificate : Declaration :=
  { sampleCertificate with consumes := some [("dns", ⟨"nowhere", false⟩)] }

/-- The link of another kind is looked up, so the certificate is not generated. -/
theorem generate_stranded :
    (Program.run World.answer
        (generate sampleLinked (.fresh ⟨"set-1"⟩ "orders") sampleFlags strandedCertificate)
        sampleWorld).1 = .error (.link (.unknownLink "nowhere" "db_cert" "orders")) ∧
      (Program.run World.answer
        (generate sampleLinked (.fresh ⟨"set-1"⟩ "orders") sampleFlags strandedCertificate.supported)
        sampleWorld).1 = .ok ⟨"/d1/orders/db_cert", "1", .noOverwrite, true⟩ := by
  decide +kernel

end Generation

end ManifestVariables
