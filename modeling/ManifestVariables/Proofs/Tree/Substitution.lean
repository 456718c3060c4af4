import ManifestVariables.Resolution.Basic

/-!
# Substitution by recursion

`Tree.filled?` puts values in the place of placeholders by plain recursion on the
tree. `Resolution.substitute` replaces one node after the other along paths that
were collected before. The two agree where no object repeats a key
(`Tree.filled?_of_valued?`): a path that was collected under one child of a node
passes by all others, so a value that is put in never stands in the way of a later
path.
-/

namespace ManifestVariables

mutual

/-- No object at or below the node has a key twice. -/
def Json.DistinctKeys : Json → Prop
  | .arr items => DistinctKeysInItems items
  | .obj fields => (Keyed.keys fields).Nodup ∧ DistinctKeysInFields fields
  | _ => True

/-- No object among the items or below them has a key twice. -/
def Json.DistinctKeysInItems : List Json → Prop
  | [] => True
  | item :: rest => item.DistinctKeys ∧ DistinctKeysInItems rest

/-- No object among the values of the fields or below them has a key twice. -/
def Json.DistinctKeysInFields : List (String × Json) → Prop
  | [] => True
  | (_, child) :: rest => child.DistinctKeys ∧ DistinctKeysInFields rest

end

namespace Tree

mutual

/-- The tree with each full placeholder that is not ignored replaced by its value;
none if one of them has no value. An ignored node and all that is below it stay as
they are, and so does every node that is no full placeholder. -/
def filled? (ignored : List SubtreePattern) (value : String → Option Json) (path : Path)
    (node : Json) : Option Json :=
  if path.ignoredBy ignored then some node
  else match node with
    | .str text => if Placeholder.isFull text then value text else some (.str text)
    | .obj fields => (filledFields? ignored value path fields).map .obj
    | .arr items => (filledItems? ignored value path 0 items).map .arr
    | other => some other

/-- The fields with their values filled, under the same keys in the same order. -/
def filledFields? (ignored : List SubtreePattern) (value : String → Option Json) (path : Path) :
    List (String × Json) → Option (List (String × Json))
  | [] => some []
  | (name, child) :: rest => do
    let filledChild ← filled? ignored value (path ++ [.key name]) child
    let filledRest ← filledFields? ignored value path rest
    return (name, filledChild) :: filledRest

/-- The items filled in order, the first of which has the given position. -/
def filledItems? (ignored : List SubtreePattern) (value : String → Option Json) (path : Path)
    (position : Nat) : List Json → Option (List Json)
  | [] => some []
  | child :: rest => do
    let filledChild ← filled? ignored value (path ++ [.index position]) child
    let filledRest ← filledItems? ignored value path (position + 1) rest
    return filledChild :: filledRest

end

/-- The values of the full placeholders among some strings, with their places; none
if one of them has no value. -/
def valued? (value : String → Option Json) (strings : List (Path × String)) :
    Option (List (Path × Json)) :=
  (strings.filter fun found => Placeholder.isFull found.2).mapM fun found =>
    (value found.2).map (Prod.mk found.1)

theorem valued?_append_eq_some {value : String → Option Json}
    {first second : List (Path × String)} {found : List (Path × Json)} :
    valued? value (first ++ second) = some found ↔
      ∃ before after, valued? value first = some before ∧ valued? value second = some after ∧
        found = before ++ after := by
  simp only [valued?, List.filter_append, List.mapM_append, Option.bind_eq_bind, Option.pure_def,
    Option.bind_eq_some_iff, Option.some.injEq]
  constructor
  · rintro ⟨before, first, after, second, rfl⟩
    exact ⟨before, after, first, second, rfl⟩
  · rintro ⟨before, after, first, second, rfl⟩
    exact ⟨before, first, after, second, rfl⟩

/-- The values stand in the places of the full placeholders, in order. -/
theorem paths_of_valued? {value : String → Option Json} {strings : List (Path × String)}
    {found : List (Path × Json)} (values : valued? value strings = some found) :
    found.map Prod.fst =
      (strings.filter fun string => Placeholder.isFull string.2).map Prod.fst := by
  unfold valued? at values
  generalize (strings.filter fun string => Placeholder.isFull string.2) = full at values ⊢
  induction full generalizing found with
  | nil =>
    cases values
    rfl
  | cons string rest ih =>
    simp only [List.mapM_cons, Option.bind_eq_bind, Option.pure_def, Option.bind_eq_some_iff,
      Option.map_eq_some_iff, Option.some.injEq] at values
    obtain ⟨_, ⟨part, _, rfl⟩, others, later, rfl⟩ := values
    rw [List.map_cons, List.map_cons, ih later]

theorem exists_string_of_valued? {value : String → Option Json} {strings : List (Path × String)}
    {found : List (Path × Json)} (values : valued? value strings = some found)
    {entry : Path × Json} (member : entry ∈ found) : ∃ text, (entry.1, text) ∈ strings := by
  have place : entry.1 ∈ found.map Prod.fst := List.mem_map.mpr ⟨entry, member, rfl⟩
  rw [paths_of_valued? values] at place
  obtain ⟨string, among, same⟩ := List.mem_map.mp place
  exact ⟨string.2, same ▸ (List.mem_filter.mp among).1⟩

/-! ### Where strings stand -/

mutual

theorem prefix_of_mem_strings (ignored : List SubtreePattern) {string : Path × String} :
    ∀ (node : Json) (path : Path), string ∈ strings ignored path node → path <+: string.1
  | .null, path, member | .bool _, path, member | .int _, path, member
  | .float _, path, member => by
    simp [strings] at member
  | .str text, path, member => by
    simp only [strings] at member
    split at member
    · cases member
    · obtain rfl := List.mem_singleton.mp member
      exact List.prefix_refl _
  | .obj fields, path, member => by
    simp only [strings] at member
    split at member
    · cases member
    · obtain ⟨name, _, below⟩ := prefix_of_mem_stringsInFields ignored fields path member
      exact (List.prefix_append _ _).trans below
  | .arr items, path, member => by
    simp only [strings] at member
    split at member
    · cases member
    · obtain ⟨position, below⟩ := prefix_of_mem_stringsInItems ignored items path 0 member
      exact (List.prefix_append _ _).trans below

theorem prefix_of_mem_stringsInFields (ignored : List SubtreePattern) {string : Path × String} :
    ∀ (fields : List (String × Json)) (path : Path), string ∈ stringsInFields ignored path fields →
      ∃ name ∈ Keyed.keys fields, path ++ [.key name] <+: string.1
  | [], path, member => by cases member
  | (name, child) :: rest, path, member => by
    rw [stringsInFields] at member
    rcases List.mem_append.mp member with here | later
    · exact ⟨name, List.mem_cons_self, prefix_of_mem_strings ignored child _ here⟩
    · obtain ⟨other, among, below⟩ := prefix_of_mem_stringsInFields ignored rest path later
      exact ⟨other, List.mem_cons_of_mem _ among, below⟩

theorem prefix_of_mem_stringsInItems (ignored : List SubtreePattern) {string : Path × String} :
    ∀ (items : List Json) (path : Path) (position : Nat),
      string ∈ stringsInItems ignored path position items →
      ∃ index, path ++ [.index index] <+: string.1
  | [], path, position, member => by cases member
  | child :: rest, path, position, member => by
    rw [stringsInItems] at member
    rcases List.mem_append.mp member with here | later
    · exact ⟨position, prefix_of_mem_strings ignored child _ here⟩
    · exact prefix_of_mem_stringsInItems ignored rest path (position + 1) later

end

/-! ### Putting values in below a node -/

/-- The node with values put in, whose places are told from the root that lies
`depth` steps above. -/
def substituteBelow (depth : Nat) (node : Json) (found : List (Path × Json)) : Json :=
  found.foldl (fun node entry => Json.replaceAt entry.2 (entry.1.drop depth) node) node

theorem substituteBelow_zero (node : Json) (found : List (Path × Json)) :
    substituteBelow 0 node found = Resolution.substitute node found := by
  simp only [substituteBelow, Resolution.substitute, List.drop_zero]

@[simp] theorem substituteBelow_nil (depth : Nat) (node : Json) :
    substituteBelow depth node [] = node := rfl

@[simp] theorem substituteBelow_cons (depth : Nat) (node : Json) (entry : Path × Json)
    (found : List (Path × Json)) :
    substituteBelow depth node (entry :: found) =
      substituteBelow depth (Json.replaceAt entry.2 (entry.1.drop depth) node) found := rfl

theorem substituteBelow_append (depth : Nat) (node : Json) (first second : List (Path × Json)) :
    substituteBelow depth node (first ++ second) =
      substituteBelow depth (substituteBelow depth node first) second :=
  List.foldl_append

theorem drop_of_prefix {path place : Path} {step : Step} (below : path ++ [step] <+: place) :
    place.drop path.length = step :: place.drop (path.length + 1) := by
  obtain ⟨rest, rfl⟩ := below
  simp

/-- Values below one field change only the value of this field. -/
theorem substituteBelow_field {path : Path} {name : String} {found : List (Path × Json)}
    (below : ∀ entry ∈ found, path ++ [.key name] <+: entry.1) (child : Json)
    (rest : List (String × Json)) :
    substituteBelow path.length (.obj ((name, child) :: rest)) found =
      .obj ((name, substituteBelow (path.length + 1) child found) :: rest) := by
  induction found generalizing child with
  | nil => rfl
  | cons entry found ih =>
    have here := drop_of_prefix (below entry List.mem_cons_self)
    rw [substituteBelow_cons, here, Json.replaceAt, Keyed.modify, if_pos rfl, substituteBelow_cons]
    exact ih (fun entry member => below entry (List.mem_cons_of_mem _ member)) _

/-- Values below other fields pass by a field. -/
theorem substituteBelow_other_fields {path : Path} {name : String} {found : List (Path × Json)}
    (below : ∀ entry ∈ found, ∃ other, other ≠ name ∧ path ++ [.key other] <+: entry.1)
    (child : Json) (rest : List (String × Json)) :
    ∃ changed, substituteBelow path.length (.obj rest) found = .obj changed ∧
      substituteBelow path.length (.obj ((name, child) :: rest)) found =
        .obj ((name, child) :: changed) := by
  induction found generalizing rest with
  | nil => exact ⟨rest, rfl, rfl⟩
  | cons entry found ih =>
    obtain ⟨other, different, here⟩ := below entry List.mem_cons_self
    simp only [substituteBelow_cons, drop_of_prefix here, Json.replaceAt, Keyed.modify,
      if_neg different.symm]
    exact ih (fun entry member => below entry (List.mem_cons_of_mem _ member)) _

/-- Values below one item change only this item. -/
theorem substituteBelow_item {path : Path} {found : List (Path × Json)} (before : List Json)
    (below : ∀ entry ∈ found, path ++ [.index before.length] <+: entry.1) (child : Json)
    (rest : List Json) :
    substituteBelow path.length (.arr (before ++ child :: rest)) found =
      .arr (before ++ substituteBelow (path.length + 1) child found :: rest) := by
  induction found generalizing child with
  | nil => rfl
  | cons entry found ih =>
    have here := drop_of_prefix (below entry List.mem_cons_self)
    have changed (change : Json → Json) :
        (before ++ child :: rest).modify before.length change = before ++ change child :: rest := by
      simp [List.modify_eq_take_drop]
    rw [substituteBelow_cons, here, Json.replaceAt, changed, substituteBelow_cons]
    exact ih (fun entry member => below entry (List.mem_cons_of_mem _ member)) _

/-! ### Recursion and collected paths agree -/

mutual

/-- A node whose full placeholders have values is filled with just these. -/
theorem filled?_of_valued? (ignored : List SubtreePattern) {value : String → Option Json} :
    ∀ (node : Json) (path : Path) {found : List (Path × Json)}, node.DistinctKeys →
      valued? value (strings ignored path node) = some found →
      filled? ignored value path node = some (substituteBelow path.length node found)
  | .null, path, found, distinct, values | .bool _, path, found, distinct, values
  | .int _, path, found, distinct, values | .float _, path, found, distinct, values => by
    simp only [strings, ite_self] at values
    cases values
    simp [filled?]
  | .str text, path, found, distinct, values => by
    simp only [strings] at values
    rw [filled?]
    split at values
    next covered =>
      cases values
      rw [if_pos covered]
      rfl
    next open_ =>
      rw [if_neg open_]
      by_cases full : Placeholder.isFull text
      · simp only [valued?, full, List.filter_cons_of_pos, List.filter_nil, List.mapM_cons,
          List.mapM_nil, Option.bind_eq_bind, Option.pure_def, Option.bind_eq_some_iff,
          Option.map_eq_some_iff, Option.some.injEq] at values
        obtain ⟨_, ⟨part, here, rfl⟩, _, rfl, rfl⟩ := values
        simp [full, here, Json.replaceAt]
      · simp only [valued?, full, Bool.false_eq_true, not_false_eq_true, List.filter_cons_of_neg,
          List.filter_nil, List.mapM_nil, Option.pure_def, Option.some.injEq] at values
        subst values
        simp [full]
  | .obj fields, path, found, distinct, values => by
    simp only [strings] at values
    rw [filled?]
    split at values
    next covered =>
      cases values
      rw [if_pos covered]
      rfl
    next open_ =>
      obtain ⟨changed, filled, substituted⟩ :=
        filledFields?_of_valued? ignored fields path distinct.1 distinct.2 values
      rw [if_neg open_, substituted]
      simp only [filled, Option.map_some]
  | .arr items, path, found, distinct, values => by
    simp only [strings] at values
    rw [filled?]
    split at values
    next covered =>
      cases values
      rw [if_pos covered]
      rfl
    next open_ =>
      obtain ⟨changed, filled, substituted⟩ :=
        filledItems?_of_valued? ignored items path [] distinct values
      rw [if_neg open_]
      simp only [List.nil_append] at substituted
      simp only [List.length_nil] at filled
      simp only [filled, substituted, Option.map_some]

theorem filledFields?_of_valued? (ignored : List SubtreePattern) {value : String → Option Json} :
    ∀ (fields : List (String × Json)) (path : Path) {found : List (Path × Json)},
      (Keyed.keys fields).Nodup → Json.DistinctKeysInFields fields →
      valued? value (stringsInFields ignored path fields) = some found →
      ∃ changed, filledFields? ignored value path fields = some changed ∧
        substituteBelow path.length (.obj fields) found = .obj changed
  | [], path, found, _, _, values => by
    cases values
    exact ⟨[], rfl, rfl⟩
  | (name, child) :: rest, path, found, fresh, distinct, values => by
    rw [stringsInFields, valued?_append_eq_some] at values
    obtain ⟨here, later, values, others, rfl⟩ := values
    obtain ⟨absent, fresh⟩ := List.nodup_cons.mp fresh
    have filledChild := filled?_of_valued? ignored child (path ++ [.key name]) distinct.1 values
    obtain ⟨changed, filledRest, substituted⟩ :=
      filledFields?_of_valued? ignored rest path fresh distinct.2 others
    have below : ∀ entry ∈ here, path ++ [.key name] <+: entry.1 := by
      intro entry member
      obtain ⟨text, among⟩ := exists_string_of_valued? values member
      exact prefix_of_mem_strings ignored child _ among
    have aside : ∀ entry ∈ later, ∃ other, other ≠ name ∧ path ++ [.key other] <+: entry.1 := by
      intro entry member
      obtain ⟨text, among⟩ := exists_string_of_valued? others member
      obtain ⟨other, known, below⟩ := prefix_of_mem_stringsInFields ignored rest path among
      exact ⟨other, fun same => absent (same ▸ known), below⟩
    rw [List.length_append, List.length_singleton] at filledChild
    obtain ⟨changed', rested, passed⟩ := substituteBelow_other_fields aside
      (substituteBelow (path.length + 1) child here) rest
    obtain rfl : changed' = changed := Json.obj.inj (rested.symm.trans substituted)
    refine ⟨(name, substituteBelow (path.length + 1) child here) :: changed', ?_, ?_⟩
    · simp only [filledFields?, filledChild, filledRest, Option.bind_eq_bind, Option.bind_some,
        Option.pure_def]
    · rw [substituteBelow_append, substituteBelow_field below, passed]

theorem filledItems?_of_valued? (ignored : List SubtreePattern) {value : String → Option Json} :
    ∀ (items : List Json) (path : Path) (before : List Json) {found : List (Path × Json)},
      Json.DistinctKeysInItems items →
      valued? value (stringsInItems ignored path before.length items) = some found →
      ∃ changed, filledItems? ignored value path before.length items = some changed ∧
        substituteBelow path.length (.arr (before ++ items)) found = .arr (before ++ changed)
  | [], path, before, found, _, values => by
    cases values
    exact ⟨[], rfl, rfl⟩
  | child :: rest, path, before, found, distinct, values => by
    rw [stringsInItems, valued?_append_eq_some] at values
    obtain ⟨here, later, values, others, rfl⟩ := values
    have filledChild :=
      filled?_of_valued? ignored child (path ++ [.index before.length]) distinct.1 values
    rw [List.length_append, List.length_singleton] at filledChild
    have below : ∀ entry ∈ here, path ++ [.index before.length] <+: entry.1 := by
      intro entry member
      obtain ⟨text, among⟩ := exists_string_of_valued? values member
      exact prefix_of_mem_strings ignored child _ among
    have next : (before ++ [substituteBelow (path.length + 1) child here]).length =
        before.length + 1 := by
      rw [List.length_append, List.length_singleton]
    obtain ⟨changed, filledRest, substituted⟩ := filledItems?_of_valued? ignored rest path
      (before ++ [substituteBelow (path.length + 1) child here]) distinct.2 (next ▸ others)
    rw [next] at filledRest
    refine ⟨substituteBelow (path.length + 1) child here :: changed, ?_, ?_⟩
    · simp only [filledItems?, filledChild, filledRest, Option.bind_eq_bind, Option.bind_some,
        Option.pure_def]
    · rw [substituteBelow_append, substituteBelow_item before below]
      simpa only [List.append_assoc, List.singleton_append] using substituted

end

/-! ### What fills a tree -/

section Filling

variable {first second : Json}

mutual

/-- Two values that fill a tree alike are the same, where it has a placeholder. -/
theorem eq_of_filled? (ignored : List SubtreePattern) :
    ∀ (node : Json) (path : Path) {filled : Json},
      (∃ string ∈ strings ignored path node, Placeholder.isFull string.2 = true) →
      filled? ignored (fun _ => some first) path node = some filled →
      filled? ignored (fun _ => some second) path node = some filled → first = second
  | .null, path, filled, stands, _, _ | .bool _, path, filled, stands, _, _
  | .int _, path, filled, stands, _, _ | .float _, path, filled, stands, _, _ => by
    simp [strings] at stands
  | .str text, path, filled, stands, one, other => by
    obtain ⟨string, among, full⟩ := stands
    simp only [strings] at among
    rw [filled?] at one other
    split at among
    · cases among
    next open_ =>
      obtain rfl := List.mem_singleton.mp among
      simp only [if_neg open_, full, if_true] at one other
      exact Option.some.inj (one.trans other.symm)
  | .obj fields, path, filled, stands, one, other => by
    simp only [strings] at stands
    rw [filled?] at one other
    split at stands
    · obtain ⟨_, among, _⟩ := stands
      cases among
    next open_ =>
      rw [if_neg open_, Option.map_eq_some_iff] at one other
      obtain ⟨changed, one, rfl⟩ := one
      obtain ⟨same, other, equal⟩ := other
      cases equal
      exact eq_of_filledFields? ignored fields path stands one other
  | .arr items, path, filled, stands, one, other => by
    simp only [strings] at stands
    rw [filled?] at one other
    split at stands
    · obtain ⟨_, among, _⟩ := stands
      cases among
    next open_ =>
      rw [if_neg open_, Option.map_eq_some_iff] at one other
      obtain ⟨changed, one, rfl⟩ := one
      obtain ⟨same, other, equal⟩ := other
      cases equal
      exact eq_of_filledItems? ignored items path 0 stands one other

theorem eq_of_filledFields? (ignored : List SubtreePattern) :
    ∀ (fields : List (String × Json)) (path : Path) {filled : List (String × Json)},
      (∃ string ∈ stringsInFields ignored path fields, Placeholder.isFull string.2 = true) →
      filledFields? ignored (fun _ => some first) path fields = some filled →
      filledFields? ignored (fun _ => some second) path fields = some filled → first = second
  | [], path, filled, stands, _, _ => by
    obtain ⟨_, among, _⟩ := stands
    cases among
  | (name, child) :: rest, path, filled, stands, one, other => by
    simp only [filledFields?, Option.bind_eq_bind, Option.pure_def, Option.bind_eq_some_iff,
      Option.some.injEq] at one other
    obtain ⟨part, here, later, there, rfl⟩ := one
    obtain ⟨samePart, hereToo, sameLater, thereToo, same⟩ := other
    cases same
    obtain ⟨string, among, full⟩ := stands
    rw [stringsInFields] at among
    rcases List.mem_append.mp among with inChild | inRest
    · exact eq_of_filled? ignored child _ ⟨string, inChild, full⟩ here hereToo
    · exact eq_of_filledFields? ignored rest path ⟨string, inRest, full⟩ there thereToo

theorem eq_of_filledItems? (ignored : List SubtreePattern) :
    ∀ (items : List Json) (path : Path) (position : Nat) {filled : List Json},
      (∃ string ∈ stringsInItems ignored path position items,
        Placeholder.isFull string.2 = true) →
      filledItems? ignored (fun _ => some first) path position items = some filled →
      filledItems? ignored (fun _ => some second) path position items = some filled →
      first = second
  | [], path, position, filled, stands, _, _ => by
    obtain ⟨_, among, _⟩ := stands
    cases among
  | child :: rest, path, position, filled, stands, one, other => by
    simp only [filledItems?, Option.bind_eq_bind, Option.pure_def, Option.bind_eq_some_iff,
      Option.some.injEq] at one other
    obtain ⟨part, here, later, there, rfl⟩ := one
    obtain ⟨samePart, hereToo, sameLater, thereToo, same⟩ := other
    cases same
    obtain ⟨string, among, full⟩ := stands
    rw [stringsInItems] at among
    rcases List.mem_append.mp among with inChild | inRest
    · exact eq_of_filled? ignored child _ ⟨string, inChild, full⟩ here hereToo
    · exact eq_of_filledItems? ignored rest path (position + 1) ⟨string, inRest, full⟩ there
        thereToo

end

end Filling

end Tree

end ManifestVariables
