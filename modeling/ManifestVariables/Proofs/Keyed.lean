import ManifestVariables.Keyed

/-!
# Keys and their order

`Keyed.put` adds a key at the end where it is not there yet (`Keyed.keys_put`), so lists that are
put together by it have each key once (`Keyed.ofPairs_spec`). Lists that are put together in order
(`Keyed.ordered`) have each key once, the least one first (`Keyed.ascending_ordered`). Lists that
are like this already stay as they are (`Keyed.ofPairs_of_nodup`, `Keyed.ordered_of_ascending`).
-/

namespace ManifestVariables.Keyed

section Keys

variable {κ α : Type} [DecidableEq κ] {entries : Keyed κ α} {entry : κ × α} {key : κ} {value : α}

theorem mem_keys_iff : key ∈ keys entries ↔ contains entries key = true := by
  unfold contains
  induction entries with
  | nil => simp [keys, get?]
  | cons entry rest ih =>
    obtain ⟨k, value⟩ := entry
    have rest_iff : key ∈ rest.map Prod.fst ↔ (get? rest key).isSome = true := ih
    by_cases same : k = key
    · simp [keys, get?, same]
    · simp [keys, get?, same, Ne.symm same, rest_iff]

theorem mem_keys_of_get? (found : get? entries key = some value) : key ∈ keys entries := by
  rw [mem_keys_iff, contains, found]
  rfl

theorem mem_of_get? (found : get? entries key = some value) : (key, value) ∈ entries := by
  induction entries with
  | nil => cases found
  | cons first rest ih =>
    rw [get?] at found
    split at found
    next same => simp [← same, ← Option.some.inj found]
    next => exact List.mem_cons_of_mem _ (ih found)

/-- Where no key is repeated, every entry is the one that is found under its key. -/
theorem get?_of_mem (distinct : (keys entries).Nodup) (member : (key, value) ∈ entries) :
    get? entries key = some value := by
  induction entries with
  | nil => cases member
  | cons first rest ih =>
    obtain ⟨absent, distinct⟩ := List.nodup_cons.mp distinct
    rcases List.mem_cons.mp member with rfl | later
    · simp [get?]
    · have different : first.1 ≠ key :=
        fun same => absurd (List.mem_map.mpr ⟨_, later, same.symm⟩) absent
      rw [get?, if_neg different, ih distinct later]

/-- A key that is added comes last. -/
theorem keys_put : keys (put entries key value) =
    keys entries ++ if key ∈ keys entries then [] else [key] := by
  induction entries with
  | nil => rfl
  | cons entry rest ih =>
    obtain ⟨k, v⟩ := entry
    by_cases same : k = key
    · simp [put, keys, same]
    · have here : keys (put ((k, v) :: rest) key value) = k :: keys (put rest key value) := by
        simp [put, same, keys]
      have there : key ∈ keys ((k, v) :: rest) ↔ key ∈ keys rest := by
        simp [keys, Ne.symm same]
      rw [here, ih]
      simp only [there]
      rfl

theorem nodup_keys_put (distinct : (keys entries).Nodup) :
    (keys (put entries key value)).Nodup := by
  rw [keys_put]
  split
  next => rwa [List.append_nil]
  next absent =>
    refine List.nodup_append.mpr ⟨distinct, List.nodup_cons.mpr ⟨List.not_mem_nil, .nil⟩, ?_⟩
    rintro _ member _ here rfl
    exact absent (List.mem_singleton.mp here ▸ member)

theorem mem_put (member : entry ∈ put entries key value) :
    entry = (key, value) ∨ entry ∈ entries := by
  induction entries with
  | nil => exact .inl (List.mem_singleton.mp member)
  | cons first rest ih =>
    rw [put] at member
    split at member
    next same =>
      rcases List.mem_cons.mp member with rfl | later
      · exact .inl (by rw [same])
      · exact .inr (List.mem_cons_of_mem _ later)
    next =>
      rcases List.mem_cons.mp member with rfl | later
      · exact .inr List.mem_cons_self
      · exact (ih later).imp_right (List.mem_cons_of_mem _)

/-- Pairs that are put together have each key once, with the value of some pair. -/
theorem ofPairs_spec (pairs : List (κ × α)) :
    (keys (ofPairs pairs)).Nodup ∧ ofPairs pairs ⊆ pairs := by
  have grown (entries : Keyed κ α) (distinct : (keys entries).Nodup) :
      (keys (pairs.foldl (fun entries entry => put entries entry.1 entry.2) entries)).Nodup ∧
        pairs.foldl (fun entries entry => put entries entry.1 entry.2) entries ⊆
          entries ++ pairs := by
    induction pairs generalizing entries with
    | nil => exact ⟨distinct, by simp⟩
    | cons pair rest ih =>
      obtain ⟨once, among⟩ := ih (put entries pair.1 pair.2) (nodup_keys_put distinct)
      refine ⟨once, fun entry member => ?_⟩
      rcases List.mem_append.mp (among member) with put | later
      · rcases mem_put put with rfl | before <;> simp [*]
      · simp [later]
  exact grown [] .nil

theorem put_of_not_mem (absent : key ∉ keys entries) :
    put entries key value = entries ++ [(key, value)] := by
  induction entries with
  | nil => rfl
  | cons first rest ih =>
    obtain ⟨different, later⟩ := not_or.mp (mt List.mem_cons.mpr absent)
    rw [put, if_neg (Ne.symm different), ih later, List.cons_append]

/-- Pairs without repeated keys are put together as they are. -/
theorem ofPairs_of_nodup (once : (keys entries).Nodup) : ofPairs entries = entries := by
  have appended (before rest : Keyed κ α) (once : (keys (before ++ rest)).Nodup) :
      rest.foldl (fun entries entry => put entries entry.1 entry.2) before = before ++ rest := by
    induction rest generalizing before with
    | nil => simp
    | cons entry rest ih =>
      have absent : entry.1 ∉ keys before := by
        intro member
        rw [keys, List.map_append, List.nodup_append] at once
        exact once.2.2 _ member _ List.mem_cons_self rfl
      have together : before ++ entry :: rest = before ++ [entry] ++ rest := by simp
      rw [List.foldl_cons, put_of_not_mem absent, ih _ (together ▸ once), together]
  exact appended [] entries once

section PutIfAny

variable (entries : Keyed κ α) (key : κ) (any : Option α)

end PutIfAny

end Keys

variable {α : Type} {entries rest : Keyed String α} {key other : String} {value : α}

/-- The keys are in strictly ascending order. -/
def Ascending (entries : Keyed String α) : Prop :=
  (keys entries).Pairwise (· < ·)

theorem Ascending.tail {entry : String × α} (ascending : Ascending (entry :: rest)) :
    Ascending rest :=
  (List.pairwise_cons.mp ascending).2

theorem mem_keys_putOrdered_iff {added : String} :
    other ∈ keys (putOrdered entries added value) ↔ other = added ∨ other ∈ keys entries := by
  induction entries with
  | nil => simp [putOrdered, keys]
  | cons entry rest ih =>
    obtain ⟨k, v⟩ := entry
    have tail : other ∈ (putOrdered rest added value).map Prod.fst ↔
        other = added ∨ other ∈ rest.map Prod.fst := ih
    unfold putOrdered
    split
    next same => simp [keys, same]
    split
    next => simp [keys]
    next => simp [keys, tail, or_left_comm]

theorem Ascending.putOrdered (ascending : Ascending entries) :
    Ascending (putOrdered entries key value) := by
  induction entries with
  | nil => exact List.pairwise_singleton _ _
  | cons entry rest ih =>
    obtain ⟨k, v⟩ := entry
    obtain ⟨below, tail⟩ := List.pairwise_cons.mp ascending
    unfold Keyed.putOrdered
    split
    next => exact ascending
    next different =>
      split
      next before =>
        refine List.pairwise_cons.mpr ⟨fun other member => ?_, ascending⟩
        rcases List.mem_cons.mp member with rfl | member
        · exact before
        · exact String.lt_trans before (below other member)
      next after =>
        have before : k < key := Std.lt_of_le_of_ne (String.not_lt.mp after) different
        refine List.pairwise_cons.mpr ⟨fun other member => ?_, ih tail⟩
        rcases mem_keys_putOrdered_iff.mp member with rfl | member
        · exact before
        · exact below other member

theorem ascending_ordered (pairs : List (String × α)) : Ascending (ordered pairs) := by
  have grown (entries : Keyed String α) (ascending : Ascending entries) :
      Ascending (pairs.foldl (fun entries entry => Keyed.putOrdered entries entry.1 entry.2)
        entries) := by
    induction pairs generalizing entries with
    | nil => exact ascending
    | cons entry rest ih => exact ih _ ascending.putOrdered
  exact grown [] .nil

theorem putOrdered_of_lt (above : ∀ other ∈ keys entries, other < key) :
    putOrdered entries key value = entries ++ [(key, value)] := by
  induction entries with
  | nil => rfl
  | cons entry rest ih =>
    obtain ⟨k, v⟩ := entry
    obtain ⟨here, later⟩ := List.forall_mem_cons.mp above
    have different : k ≠ key := Std.ne_of_lt here
    have after : ¬ key < k := fun before => String.lt_irrefl _ (String.lt_trans here before)
    rw [putOrdered, if_neg different, if_neg after, ih later, List.cons_append]

/-- Pairs in ascending order of their keys are put together as they are. -/
theorem ordered_of_ascending (ascending : Ascending entries) : ordered entries = entries := by
  have appended (before rest : Keyed String α) (ascending : Ascending (before ++ rest)) :
      rest.foldl (fun entries entry => Keyed.putOrdered entries entry.1 entry.2) before =
        before ++ rest := by
    induction rest generalizing before with
    | nil => simp
    | cons entry rest ih =>
      have above : ∀ other ∈ keys before, other < entry.1 := by
        intro other member
        rw [Ascending, keys, List.map_append, List.pairwise_append] at ascending
        exact ascending.2.2 other member _ List.mem_cons_self
      have together : before ++ entry :: rest = before ++ [entry] ++ rest := by simp
      rw [List.foldl_cons, putOrdered_of_lt above, ih _ (together ▸ ascending), together]
  exact appended [] entries ascending

end ManifestVariables.Keyed
