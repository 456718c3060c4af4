import ManifestVariables.Proofs.Resolution.Failures

/-!
# Parts of a value

The part of a value that keys select is at the end of a chain of objects
(`Resolution.Selects`). Following keys keeps two things in step: the part that has been reached,
and what it is called. So it can be interrupted anywhere (`Resolution.descendFrom_append`), and
where it fails, it has come as far as the keys lead, and says so (`Resolution.Stops`).
`Resolution.descend_exact` is all of this.
-/

namespace ManifestVariables.Resolution

/-- A chain of objects leads from a value to a part of it, in which each key selects the next. -/
inductive Selects : Json → List String → Json → Prop where
  | whole (value : Json) : Selects value [] value
  | field {fields : Keyed String Json} {key : String} {keys : List String} {child part : Json}
      (selects : Keyed.get? fields key = some child) (onward : Selects child keys part) :
      Selects (.obj fields) (key :: keys) part

/-- Keys lead to some part of a value and no further: the part lacks the next key. -/
structure Stops (base : String) (value : Json) (keys before : List String) (key : String) :
    Prop where
  next : before ++ [key] <+: keys
  reached : ∃ parent, descend base before value = .ok parent ∧ ∀ child, ¬ Selects parent [key] child
  /-- The next key is the first that cannot be followed. -/
  first : ∀ shorter, shorter <+: keys →
    ((∃ part, descend base shorter value = .ok part) ↔ shorter <+: before)

variable {base parent key : String} {keys before shorter first second : List String}
  {value part middle : Json} {failure : PlaceholderFailure}

/-! ### Chains of objects -/

/-- Only objects have keys. -/
theorem get?_eq_some_iff :
    value.get? key = some part ↔ ∃ fields, value = .obj fields ∧ Keyed.get? fields key = some part := by
  cases value <;> simp [Json.get?]

theorem selects_iff : Selects value keys part ↔ keys.foldlM Json.get? value = some part := by
  constructor
  · intro selects
    induction selects with
    | whole => rfl
    | @field fields key keys child part here _ ih =>
      rw [List.foldlM_cons, Json.get?, here]
      exact ih
  · intro found
    induction keys generalizing value with
    | nil =>
      cases found
      exact .whole _
    | cons key rest ih =>
      rw [List.foldlM_cons] at found
      obtain ⟨child, here, onward⟩ := Option.bind_eq_some_iff.mp found
      obtain ⟨fields, rfl, selects⟩ := get?_eq_some_iff.mp here
      exact .field selects (ih onward)

theorem selects_append_iff : Selects value (first ++ second) part ↔
    ∃ middle, Selects value first middle ∧ Selects middle second part := by
  simp only [selects_iff, List.foldlM_append, Option.bind_eq_bind, Option.bind_eq_some_iff]

theorem selects_key_iff : Selects value [key] part ↔ value.get? key = some part := by
  rw [selects_iff, List.foldlM_cons]
  cases value.get? key <;> simp

/-- Keys that lead to a part lead to a part at each of them. -/
theorem Selects.of_prefix (selects : Selects value keys part) (within : before <+: keys) :
    ∃ parent, Selects value before parent := by
  obtain ⟨after, rfl⟩ := within
  obtain ⟨parent, selects, _⟩ := selects_append_iff.mp selects
  exact ⟨parent, selects⟩

/-- Where a part lacks the next key, it is as far as the keys lead. -/
theorem selects_prefix_iff (next : before ++ [key] <+: keys) (reached : Selects value before middle)
    (lacking : middle.get? key = none) (within : shorter <+: keys) :
    (∃ part, Selects value shorter part) ↔ shorter <+: before := by
  constructor
  · rintro ⟨part, selects⟩
    refine List.prefix_of_prefix_length_le within ((List.prefix_append _ _).trans next)
      (Nat.le_of_not_lt fun longer => ?_)
    -- Keys that led further would lead to what the part lacks.
    have passed : before ++ [key] <+: shorter :=
      List.prefix_of_prefix_length_le next within (by rw [List.length_append]; exact longer)
    obtain ⟨below, selects⟩ := selects.of_prefix passed
    obtain ⟨other, selectsOther, selectsKey⟩ := selects_append_iff.mp selects
    obtain rfl : other = middle :=
      Option.some.inj ((selects_iff.mp selectsOther).symm.trans (selects_iff.mp reached))
    exact nomatch lacking.symm.trans (selects_key_iff.mp selectsKey)
  · exact reached.of_prefix

/-! ### Following keys -/

theorem descend_eq_ok_iff : descend base keys value = .ok part ↔ Selects value keys part := by
  have selected := descendFrom_toOption base base keys value
  rw [selects_iff, ← selected]
  constructor
  · intro followed
    rw [descend] at followed
    rw [followed]
    rfl
  · exact eq_ok_of_toOption

/-- The name of a part is the names that lead to it, joined with dots. -/
theorem partName_eq (base : String) (keys : List String) :
    partName base keys = ".".intercalate (base :: keys) := by
  induction keys generalizing base with
  | nil => exact String.intercalate_singleton.symm
  | cons key rest ih => exact ih (base ++ "." ++ key)

/-- What was reached and what it is called is all that following further keys depends on. -/
theorem descendFrom_append : descendFrom base parent (first ++ second) value =
    descendFrom base parent first value >>= descendFrom base (partName parent first) second := by
  induction first generalizing parent value with
  | nil => rfl
  | cons key rest ih =>
    rw [List.cons_append, descendFrom, descendFrom]
    cases value.get? key with
    | none => rfl
    | some child => exact ih

theorem descend_eq_error_iff : descend base keys value = .error failure ↔
    ∃ before key parent, Stops base value keys before key ∧
      parent = ".".intercalate (base :: before) ∧ failure = .missingKey base parent key := by
  rw [descend, descendFrom_eq_error_iff]
  constructor
  · rintro ⟨before, key, after, middle, rfl, found, lacking, rfl⟩
    have reached : Selects value before middle := selects_iff.mpr found
    have next : before ++ [key] <+: before ++ key :: after := ⟨after, by simp⟩
    refine ⟨before, key, _, ⟨next, ⟨middle, descend_eq_ok_iff.mpr reached, ?_⟩, ?_⟩,
      partName_eq base before, rfl⟩
    · intro child selects
      cases lacking.symm.trans (selects_key_iff.mp selects)
    · intro shorter within
      simp only [descend_eq_ok_iff]
      exact selects_prefix_iff next reached lacking within
  · rintro ⟨before, key, _, ⟨⟨after, rfl⟩, ⟨middle, reached, lacking⟩, _⟩, rfl, rfl⟩
    refine ⟨before, key, after, middle, by simp, selects_iff.mp (descend_eq_ok_iff.mp reached), ?_, ?_⟩
    · exact Option.eq_none_iff_forall_ne_some.mpr fun child found =>
        lacking child (selects_key_iff.mpr found)
    · rw [partName_eq]

/-- Following keys comes to the part at the end of their chain of objects, and it can be done in two
goes. Where it fails, its text names the variable, the first key that cannot be followed, and the
part before it, which can be reached. -/
theorem descend_exact (base : String) (keys : List String) (value : Json) :
    (∀ part, descend base keys value = .ok part ↔ Selects value keys part) ∧
      (∀ first second, keys = first ++ second →
        descend base keys value =
            descend base first value >>=
              descendFrom base (".".intercalate (base :: first)) second ∧
          ∀ part, descend base keys value = .ok part ↔
            ∃ middle, descend base first value = .ok middle ∧
              descend base second middle = .ok part) ∧
      ∀ failure, descend base keys value = .error failure ↔
        ∃ before key parent, Stops base value keys before key ∧
          parent = ".".intercalate (base :: before) ∧ failure = .missingKey base parent key ∧
          failure.message =
            s!"Failed to fetch variable '{base}' from config server: Expected parent '{parent}' hash to have key '{key}'" := by
  refine ⟨fun part => descend_eq_ok_iff, ?_, fun failure => ?_⟩
  · rintro first second rfl
    refine ⟨?_, fun part => ?_⟩
    · rw [← partName_eq]
      exact descendFrom_append
    · simp only [descend_eq_ok_iff]
      exact selects_append_iff
  · rw [descend_eq_error_iff]
    constructor
    · rintro ⟨before, key, parent, stops, named, rfl⟩
      exact ⟨before, key, parent, stops, named, rfl, rfl⟩
    · rintro ⟨before, key, parent, stops, named, same, _⟩
      exact ⟨before, key, parent, stops, named, same⟩

/-- Keys that lead through one object and then to a text, which has none. -/
theorem descend_exact_certificate :
    let value : Json := .obj [("ca", .obj [("level_1", .str "x")])]
    let keys := ["ca", "level_1", "level_2"]
    Selects value ["ca", "level_1"] (.str "x") ∧
      (∀ part, ¬ Selects value keys part) ∧
      ∃ failure, descend "/d/o/h" keys value = .error failure ∧
        failure.message = "Failed to fetch variable '/d/o/h' from config server: Expected parent '/d/o/h.ca.level_1' hash to have key 'level_2'" := by
  intro value keys
  have failed : descend "/d/o/h" keys value =
      .error (.missingKey "/d/o/h" "/d/o/h.ca.level_1" "level_2") := by
    rfl
  obtain ⟨ok_iff, _, error_iff⟩ := descend_exact "/d/o/h" keys value
  obtain ⟨before, key, parent, _, _, same, told⟩ := (error_iff _).mp failed
  cases same
  refine ⟨.field rfl (.field rfl (.whole _)), fun part selects => ?_, _, failed, told⟩
  exact nomatch failed.symm.trans ((ok_iff part).mpr selects)

end ManifestVariables.Resolution
