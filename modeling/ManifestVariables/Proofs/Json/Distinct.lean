import ManifestVariables.Json.Parser
import ManifestVariables.Proofs.Keyed
import ManifestVariables.Proofs.Tree.Substitution

/-!
# Values without repeated keys

The fields of an object are compared by their keys, so a value is equal to itself as long as
none of its objects repeats a key (`Json.same_self`). Every value that is read from a text is of
this kind (`Json.distinctKeys_of_parse?`, `Json.distinctKeys_of_parseRecord?`), and so are its
parts and a tree of this kind into which such values are put
(`Json.DistinctKeys.substitute`).
-/

namespace ManifestVariables

namespace Keyed

variable {κ α : Type} [DecidableEq κ] {entries : Keyed κ α} {entry : κ × α} {key : κ}

theorem keys_modify (change : α → α) (entries : Keyed κ α) (key : κ) :
    keys (modify change entries key) = keys entries := by
  induction entries with
  | nil => rfl
  | cons first rest ih =>
    rw [modify]
    split
    · rfl
    · exact congrArg (first.1 :: ·) ih

theorem mem_modify {change : α → α} (member : entry ∈ modify change entries key) :
    entry ∈ entries ∨ ∃ before ∈ entries, entry.2 = change before.2 := by
  induction entries with
  | nil => cases member
  | cons first rest ih =>
    rw [modify] at member
    split at member
    next =>
      rcases List.mem_cons.mp member with rfl | later
      · exact .inr ⟨first, List.mem_cons_self, rfl⟩
      · exact .inl (List.mem_cons_of_mem _ later)
    next =>
      rcases List.mem_cons.mp member with rfl | later
      · exact .inl List.mem_cons_self
      · rcases ih later with held | ⟨before, among, changed⟩
        · exact .inl (List.mem_cons_of_mem _ held)
        · exact .inr ⟨before, List.mem_cons_of_mem _ among, changed⟩

end Keyed

namespace Json

variable {node value below : Json} {items : List Json} {fields found : List (String × Json)}
  {names : List String} {text : String}

theorem distinctKeysInItems_iff :
    DistinctKeysInItems items ↔ ∀ item ∈ items, item.DistinctKeys := by
  induction items with
  | nil => simp [DistinctKeysInItems]
  | cons item rest ih => simp [DistinctKeysInItems, ih]

theorem distinctKeysInFields_iff :
    DistinctKeysInFields fields ↔ ∀ field ∈ fields, field.2.DistinctKeys := by
  induction fields with
  | nil => simp [DistinctKeysInFields]
  | cons field rest ih => simp [DistinctKeysInFields, ih]

/-! ### Equality -/

mutual

/-- A value without repeated keys is equal to itself. -/
theorem same_self : ∀ (node : Json), node.DistinctKeys → node.same node = true
  | .null, _ => by rw [same]
  | .bool _, _ | .int _, _ | .str _, _ => by simp [same]
  | .float number, _ => by simp [same, Binary64.same]
  | .arr items, distinct => by
    rw [same]
    exact sameItems_self items distinct
  | .obj fields, distinct => by
    rw [same, sameFields_of_get? fields distinct.2 fun _ member =>
      Keyed.get?_of_mem distinct.1 member]
    simp

theorem sameItems_self : ∀ (items : List Json), DistinctKeysInItems items →
    sameItems items items = true
  | [], _ => by rw [sameItems]
  | item :: rest, distinct => by
    rw [sameItems, same_self item distinct.1, sameItems_self rest distinct.2, Bool.and_self]

/-- Fields are held with equal values where they are found themselves. -/
theorem sameFields_of_get? {other : Keyed String Json} : ∀ (fields : List (String × Json)),
    DistinctKeysInFields fields →
    (∀ entry ∈ fields, Keyed.get? other entry.1 = some entry.2) → sameFields fields other = true
  | [], _, _ => by rw [sameFields]
  | (key, value) :: rest, distinct, found => by
    obtain ⟨here, later⟩ := List.forall_mem_cons.mp found
    simp only at here
    simp only [sameFields, here, same_self value distinct.1,
      sameFields_of_get? rest distinct.2 later, Bool.and_self]

end

/-! ### Reading -/

mutual

/-- Merging leaves no key repeated. -/
theorem distinctKeys_merged : ∀ node : Json, node.merged.DistinctKeys
  | .null | .bool _ | .int _ | .float _ | .str _ => by simp [merged, DistinctKeys]
  | .arr items => by
    rw [merged, DistinctKeys]
    exact distinctKeysInItems_merged items
  | .obj fields => by
    obtain ⟨once, among⟩ := Keyed.ofPairs_spec (mergedFields fields)
    have each := distinctKeysInFields_iff.mp (distinctKeysInFields_merged fields)
    rw [merged, DistinctKeys]
    exact ⟨once, distinctKeysInFields_iff.mpr fun field member => each field (among member)⟩

theorem distinctKeysInItems_merged : ∀ items, DistinctKeysInItems (mergedItems items)
  | [] => trivial
  | item :: rest => ⟨distinctKeys_merged item, distinctKeysInItems_merged rest⟩

theorem distinctKeysInFields_merged : ∀ fields, DistinctKeysInFields (mergedFields fields)
  | [] => trivial
  | (_, value) :: rest => ⟨distinctKeys_merged value, distinctKeysInFields_merged rest⟩

end

theorem distinctKeys_of_parse? (parsed : parse? text = some value) : value.DistinctKeys := by
  unfold parse? at parsed
  split at parsed
  · split at parsed
    · cases parsed
      exact distinctKeys_merged _
    · cases parsed
  · cases parsed

/-- Whichever of two ways was taken, it was followed by the same. -/
theorem exists_of_ite_bind_eq_some {α β : Type} {condition : Prop} [Decidable condition]
    {first second : Option α} {next : α → Option β} {result : β}
    (followed : (if condition then first >>= next else second >>= next) = some result) :
    ∃ between, (first = some between ∨ second = some between) ∧ next between = some result := by
  split at followed
  · obtain ⟨between, taken, followed⟩ := Option.bind_eq_some_iff.mp followed
    exact ⟨between, .inl taken, followed⟩
  · obtain ⟨between, taken, followed⟩ := Option.bind_eq_some_iff.mp followed
    exact ⟨between, .inr taken, followed⟩

theorem distinctKeys_of_knownMembers? {fuel count : Nat} {chars rest : List Char}
    (read : knownMembers? names fuel count chars = some (found, rest)) :
    DistinctKeysInFields found := by
  induction count generalizing chars found rest with
  | zero => cases read
  | succ count ih =>
    rw [knownMembers?] at read
    obtain ⟨⟨key, afterKey⟩, _, read⟩ := Option.bind_eq_some_iff.mp read
    obtain ⟨afterColon, _, read⟩ := Option.bind_eq_some_iff.mp read
    obtain ⟨⟨member, afterValue⟩, value, ended⟩ := exists_of_ite_bind_eq_some read
    have here : DistinctKeysInFields member := by
      rcases value with known | skipped
      · obtain ⟨_, _, same⟩ := Option.map_eq_some_iff.mp known
        cases same
        exact ⟨distinctKeys_merged _, trivial⟩
      · obtain ⟨_, _, same⟩ := Option.map_eq_some_iff.mp skipped
        cases same
        trivial
    dsimp only at ended
    split at ended
    · cases ended
      exact here
    · obtain ⟨⟨others, _⟩, later, same⟩ := Option.bind_eq_some_iff.mp ended
      cases same
      exact distinctKeysInFields_iff.mpr (List.forall_mem_append.mpr
        ⟨distinctKeysInFields_iff.mp here, distinctKeysInFields_iff.mp (ih later)⟩)
    · cases ended

/-- The fields of a record that is read from a text repeat no key. -/
theorem distinctKeys_of_parseRecord? {record : Record Json} {place : Nat} {name : String}
    (parsed : parseRecord? names text = some record)
    (field : record.field? place name = some value) : value.DistinctKeys := by
  unfold parseRecord? at parsed
  dsimp only at parsed
  split at parsed
  next rest _ =>
    split at parsed
    next found rest read =>
      split at parsed
      next =>
        cases parsed
        have distinct : DistinctKeysInFields found := by
          split at read
          · cases read
            trivial
          · exact distinctKeys_of_knownMembers? read
        exact distinctKeysInFields_iff.mp distinct _ (Keyed.mem_of_get? field)
      next => cases parsed
    next => cases parsed
  next =>
    split at parsed
    next items rest _ =>
      split at parsed
      next =>
        cases parsed
        exact distinctKeysInItems_iff.mp (distinctKeysInItems_merged items) _
          (List.mem_of_getElem? field)
      next => cases parsed
    next => cases parsed
  next => cases parsed

/-! ### Parts and replaced nodes -/

theorem DistinctKeys.get? {key : String} (distinct : node.DistinctKeys)
    (found : node.get? key = some below) : below.DistinctKeys := by
  cases node with
  | obj fields => exact distinctKeysInFields_iff.mp distinct.2 _ (Keyed.mem_of_get? found)
  | _ => cases found

theorem DistinctKeys.part {keys : List String} (distinct : node.DistinctKeys)
    (selected : keys.foldlM Json.get? node = some below) : below.DistinctKeys := by
  induction keys generalizing node with
  | nil =>
    cases selected
    exact distinct
  | cons key rest ih =>
    rw [List.foldlM_cons] at selected
    obtain ⟨child, found, selected⟩ := Option.bind_eq_some_iff.mp selected
    exact ih (distinct.get? found) selected

theorem DistinctKeys.replaceAt (distinct : node.DistinctKeys) (given : value.DistinctKeys)
    (path : Path) : (Json.replaceAt value path node).DistinctKeys := by
  induction path generalizing node with
  | nil =>
    rw [Json.replaceAt]
    exact given
  | cons step rest ih =>
    match step, node with
    | .key name, .obj fields =>
      have each := distinctKeysInFields_iff.mp distinct.2
      rw [Json.replaceAt, DistinctKeys, Keyed.keys_modify]
      refine ⟨distinct.1, distinctKeysInFields_iff.mpr fun field member => ?_⟩
      rcases Keyed.mem_modify member with held | ⟨before, among, changed⟩
      · exact each field held
      · rw [changed]
        exact ih (each before among)
    | .index position, .arr items =>
      have each := distinctKeysInItems_iff.mp distinct
      rw [Json.replaceAt, DistinctKeys]
      refine distinctKeysInItems_iff.mpr fun item member => ?_
      obtain ⟨place, found⟩ := List.getElem?_of_mem member
      simp only [List.getElem?_modify, Option.map_eq_map, Option.map_eq_some_iff] at found
      obtain ⟨before, held, rfl⟩ := found
      have distinct := each before (List.mem_of_getElem? held)
      split
      · exact ih distinct
      · exact distinct
    | .key _, .arr _ | .index _, .obj _ | _, .null | _, .bool _ | _, .int _ | _, .float _
    | _, .str _ => simpa [Json.replaceAt] using distinct

/-- Values without repeated keys are put into a tree without bringing any. -/
theorem DistinctKeys.substitute {found : List (Path × Json)} (distinct : node.DistinctKeys)
    (given : ∀ entry ∈ found, entry.2.DistinctKeys) :
    (Resolution.substitute node found).DistinctKeys := by
  unfold Resolution.substitute
  induction found generalizing node with
  | nil => exact distinct
  | cons entry rest ih =>
    obtain ⟨here, later⟩ := List.forall_mem_cons.mp given
    exact ih (distinct.replaceAt here entry.1) later

end Json

end ManifestVariables
