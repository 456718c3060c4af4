import ManifestVariables.Proofs.Json.Distinct
import ManifestVariables.Proofs.Tree.Location

/-!
# The order of the placeholders

The children of a node are the values of its fields or its items, each below a step
(`Json.children`). One path precedes another where they part at some node and the first goes on to
the earlier child (`Json.Precedes`). The placeholders of a tree come in this order, each on its own
path, and they are all the placeholders that have no ignored node on their way. More ignored
patterns take some of them out and leave the others as they are (`Tree.sites_exact`).
-/

namespace ManifestVariables

namespace Json

variable {tree node child : Json} {step : Step} {path other rest : Path}

/-! ### Children -/

/-- The children of a node, each below its step, in the order of the manifest. -/
def children : Json → Keyed Step Json
  | .obj fields => fields.map fun field => (.key field.1, field.2)
  | .arr items => items.zipIdx.map fun item => (.index item.2, item.1)
  | _ => []

theorem get?_children_obj (fields : List (String × Json)) (name : String) :
    Keyed.get? (children (.obj fields)) (.key name) = Keyed.get? fields name := by
  induction fields with
  | nil => rfl
  | cons field rest ih =>
    simp only [children, List.map_cons, Keyed.get?, Step.key.injEq] at ih ⊢
    rw [ih]

theorem get?_children_arr (items : List Json) (position : Nat) :
    Keyed.get? (children (.arr items)) (.index position) = items[position]? := by
  -- The positions of the items that are left start later and later.
  have counted (start position : Nat) :
      Keyed.get? ((items.zipIdx start).map fun item => (Step.index item.2, item.1))
        (.index (start + position)) = items[position]? := by
    induction items generalizing start position with
    | nil => rfl
    | cons item rest ih =>
      cases position with
      | zero => simp [Keyed.get?]
      | succ position =>
        have next := ih (start + 1) position
        rw [show start + 1 + position = start + (position + 1) by omega] at next
        simpa [Keyed.get?] using next
  have found := counted 0 position
  rwa [Nat.zero_add] at found

/-- A path goes on below the child of its first step. -/
theorem at?_cons : node.at? (step :: rest) =
    (Keyed.get? node.children step).bind fun child => child.at? rest := by
  have foreign (absent : ∀ child, (step, child) ∉ node.children) :
      Keyed.get? node.children step = none :=
    Option.eq_none_iff_forall_ne_some.mpr fun child found => absent child (Keyed.mem_of_get? found)
  match node, step with
  | .obj fields, .key name =>
    rw [get?_children_obj, at?]
    cases Keyed.get? fields name <;> rfl
  | .arr items, .index position =>
    rw [get?_children_arr, at?]
    cases items[position]? <;> rfl
  | .obj _, .index _ | .arr _, .key _ =>
    rw [foreign (by simp [children])]
    simp [at?]
  | .null, _ | .bool _, _ | .int _, _ | .float _, _ | .str _, _ => simp [at?, children, Keyed.get?]

theorem sizeOf_lt_of_mem_children (member : (step, child) ∈ node.children) :
    sizeOf child < sizeOf node := by
  cases node with
  | obj fields =>
    obtain ⟨⟨name, value⟩, among, same⟩ := List.mem_map.mp member
    cases same
    have smaller := List.sizeOf_lt_of_mem among
    simp only [Json.obj.sizeOf_spec, Prod.mk.sizeOf_spec] at smaller ⊢
    omega
  | arr items =>
    obtain ⟨item, among, same⟩ := List.mem_map.mp member
    cases same
    have smaller := List.sizeOf_lt_of_mem (List.fst_mem_of_mem_zipIdx among)
    simp only [Json.arr.sizeOf_spec]
    omega
  | _ => cases member

/-- What holds of a node if it holds of its children holds of every node. -/
theorem children_induction {holds : Json → Prop}
    (parent : ∀ node, (∀ step child, (step, child) ∈ node.children → holds child) → holds node)
    (node : Json) : holds node :=
  parent node fun _ child member =>
    have := sizeOf_lt_of_mem_children member
    children_induction parent child
termination_by sizeOf node

namespace DistinctKeys

/-- No two children of a node are below the same step. -/
theorem nodup_children (distinct : node.DistinctKeys) : (Keyed.keys node.children).Nodup := by
  cases node with
  | obj fields =>
    have steps : Keyed.keys (children (.obj fields)) = (Keyed.keys fields).map .key := by
      simp [Keyed.keys, children]
    rw [steps]
    exact distinct.1.map fun _ _ same => Step.key.inj same
  | arr items =>
    have steps : Keyed.keys (children (.arr items)) = (items.zipIdx.map Prod.snd).map .index := by
      rw [Keyed.keys, children, List.map_map, List.map_map]
      rfl
    have once : (items.zipIdx.map Prod.snd).Nodup := by
      rw [List.zipIdx_map_snd]
      exact List.nodup_range'
    rw [steps]
    exact once.map fun _ _ same => Step.index.inj same
  | _ => exact List.nodup_nil

theorem of_mem_children (distinct : node.DistinctKeys) (member : (step, child) ∈ node.children) :
    child.DistinctKeys := by
  cases node with
  | obj fields =>
    obtain ⟨field, among, same⟩ := List.mem_map.mp member
    cases same
    exact distinctKeysInFields_iff.mp distinct.2 _ among
  | arr items =>
    obtain ⟨item, among, same⟩ := List.mem_map.mp member
    cases same
    exact distinctKeysInItems_iff.mp distinct _ (List.fst_mem_of_mem_zipIdx among)
  | _ => cases member

theorem at? (distinct : tree.DistinctKeys) (leads : tree.at? path = some node) :
    node.DistinctKeys := by
  induction path generalizing tree with
  | nil =>
    rw [Json.at?] at leads
    cases leads
    exact distinct
  | cons step rest ih =>
    rw [at?_cons] at leads
    obtain ⟨child, found, leads⟩ := Option.bind_eq_some_iff.mp leads
    exact ih (distinct.of_mem_children (Keyed.mem_of_get? found)) leads

end DistinctKeys

/-! ### The order of paths -/

/-- The paths part at a node, and the first of them goes on to the child that comes first. -/
def Precedes (tree : Json) (path other : Path) : Prop :=
  ∃ way node first second, tree.at? way = some node ∧
    [first, second].Sublist (Keyed.keys node.children) ∧
    way ++ [first] <+: path ∧ way ++ [second] <+: other

theorem Precedes.below (found : Keyed.get? node.children step = some child)
    (precedes : child.Precedes path other) : node.Precedes (step :: path) (step :: other) := by
  obtain ⟨way, parting, first, second, leads, order, before, after⟩ := precedes
  refine ⟨step :: way, parting, first, second, ?_, order, ?_, ?_⟩
  · rw [at?_cons, found, Option.bind_some, leads]
  · exact List.cons_prefix_cons.mpr ⟨rfl, before⟩
  · exact List.cons_prefix_cons.mpr ⟨rfl, after⟩

/-- Neither of two paths that part leads on from the other. -/
theorem Precedes.apart (distinct : tree.DistinctKeys) (precedes : tree.Precedes path other) :
    ¬ path <+: other ∧ ¬ other <+: path := by
  obtain ⟨way, node, first, second, leads, order, before, after⟩ := precedes
  have different : first ≠ second := by
    rintro rfl
    exact List.nodup_iff_sublist.mp (distinct.at? leads).nodup_children first order
  have parted {longer : Path} (here : way ++ [first] <+: longer)
      (there : way ++ [second] <+: longer) : False := by
    have same := List.prefix_of_prefix_length_le here there (by simp)
    exact different (by simpa using same.eq_of_length (by simp))
  exact ⟨fun on => parted (before.trans on) after, fun on => parted before (after.trans on)⟩

end Json

namespace Tree

variable {tree node : Json} {ignored more : List SubtreePattern} {path place : Path} {text : String}

/-! ### What is visited -/

/-- Where nothing is ignored, a node is visited and then its children in order. -/
theorem strings_nil (path : Path) (node : Json) : strings [] path node =
    (match node with
      | .str text => [(path, text)]
      | _ => []) ++ node.children.flatMap fun child => strings [] (path ++ [child.1]) child.2 := by
  have fieldwise (fields : List (String × Json)) : stringsInFields [] path fields =
      (Json.children (.obj fields)).flatMap fun child => strings [] (path ++ [child.1]) child.2 := by
    induction fields with
    | nil => rfl
    | cons field rest ih =>
      rw [stringsInFields, ih]
      simp [Json.children]
  have counted (items : List Json) (position : Nat) : stringsInItems [] path position items =
      ((items.zipIdx position).map fun item => (Step.index item.2, item.1)).flatMap
        fun child => strings [] (path ++ [child.1]) child.2 := by
    induction items generalizing position with
    | nil => rfl
    | cons item rest ih =>
      rw [stringsInItems, ih]
      simp
  have itemwise (items : List Json) : stringsInItems [] path 0 items =
      (Json.children (.arr items)).flatMap fun child => strings [] (path ++ [child.1]) child.2 :=
    counted items 0
  match node with
  | .obj fields => simpa [strings, Path.ignoredBy] using fieldwise fields
  | .arr items => simpa [strings, Path.ignoredBy] using itemwise items
  | .null | .bool _ | .int _ | .float _ | .str _ =>
    simp [strings, Path.ignoredBy, Json.children]

/-- The strings that are visited are those to which paths lead. -/
theorem mem_strings_nil_iff (node : Json) (distinct : node.DistinctKeys) (path : Path) :
    (place, text) ∈ strings [] path node ↔
      ∃ rest, place = path ++ rest ∧ node.at? rest = some (.str text) := by
  induction node using Json.children_induction generalizing path with
  | parent node ih =>
    rw [strings_nil, List.mem_append, List.mem_flatMap]
    constructor
    · rintro (here | ⟨⟨step, child⟩, member, below⟩)
      · cases node with
        | str own =>
          obtain ⟨rfl, rfl⟩ := Prod.mk.inj (List.mem_singleton.mp here)
          exact ⟨[], by simp, by simp [Json.at?]⟩
        | _ => cases here
      · obtain ⟨rest, rfl, leads⟩ :=
          (ih step child member (distinct.of_mem_children member) _).mp below
        refine ⟨step :: rest, by simp, ?_⟩
        rw [Json.at?_cons, Keyed.get?_of_mem distinct.nodup_children member, Option.bind_some, leads]
    · rintro ⟨rest, rfl, leads⟩
      cases rest with
      | nil =>
        rw [Json.at?] at leads
        cases leads
        exact .inl (by simp)
      | cons step rest =>
        rw [Json.at?_cons] at leads
        obtain ⟨child, found, leads⟩ := Option.bind_eq_some_iff.mp leads
        have member := Keyed.mem_of_get? found
        exact .inr ⟨(step, child), member,
          (ih step child member (distinct.of_mem_children member) _).mpr ⟨rest, by simp, leads⟩⟩

/-- Strings are visited in the order of their paths. -/
theorem pairwise_strings_nil (node : Json) (distinct : node.DistinctKeys) (path : Path) :
    (strings [] path node).Pairwise fun first second =>
      ∃ before after, first.1 = path ++ before ∧ second.1 = path ++ after ∧
        node.Precedes before after := by
  induction node using Json.children_induction generalizing path with
  | parent node ih =>
    have below : (node.children.flatMap fun child =>
        strings [] (path ++ [child.1]) child.2).Pairwise fun first second =>
          ∃ before after, first.1 = path ++ before ∧ second.1 = path ++ after ∧
            node.Precedes before after := by
      refine List.pairwise_flatMap.mpr ⟨fun ⟨step, child⟩ member => ?_, ?_⟩
      · refine (ih step child member (distinct.of_mem_children member) _).imp ?_
        rintro first second ⟨before, after, here, there, precedes⟩
        have found := Keyed.get?_of_mem distinct.nodup_children member
        exact ⟨step :: before, step :: after, by simp [here], by simp [there], precedes.below found⟩
      · refine List.pairwise_iff_forall_sublist.mpr ?_
        rintro ⟨step, child⟩ ⟨step', child'⟩ order first inChild second inOther
        have member := order.subset List.mem_cons_self
        have member' := order.subset (List.mem_cons_of_mem _ List.mem_cons_self)
        obtain ⟨before, here, _⟩ :=
          (mem_strings_nil_iff child (distinct.of_mem_children member) _).mp inChild
        obtain ⟨after, there, _⟩ :=
          (mem_strings_nil_iff child' (distinct.of_mem_children member') _).mp inOther
        refine ⟨step :: before, step' :: after, by simp [here], by simp [there],
          [], node, step, step', by rw [Json.at?], order.map Prod.fst, ?_, ?_⟩
        · exact ⟨before, rfl⟩
        · exact ⟨after, rfl⟩
    rw [strings_nil]
    cases node with
    | str own => exact List.pairwise_singleton _ _
    | _ => exact below

/-! ### What is left out -/

/-- Whether an ignored node is on the way to a place, from the root up to the place itself. -/
def crosses (ignored : List SubtreePattern) (place : Path) : Bool :=
  ignored.any fun pattern => pattern.meets [] place

theorem crosses_iff : crosses ignored place = true ↔
    ∃ way : Path, way <+: place ∧ way.ignoredBy ignored = true := by
  simp only [crosses, List.any_eq_true, Path.ignoredBy]
  constructor
  · rintro ⟨pattern, member, meets⟩
    have covers : pattern.covers (place.take pattern.length) = true := by
      simpa [SubtreePattern.meets] using meets
    exact ⟨place.take pattern.length, List.take_prefix _ _, pattern, member, covers⟩
  · rintro ⟨way, within, pattern, member, covers⟩
    have reached := take_of_length_eq within (SubtreePattern.length_eq_of_covers covers)
    exact ⟨pattern, member, by simp [SubtreePattern.meets, reached, covers]⟩

theorem crosses_mono (among : ignored ⊆ more) (crossed : crosses ignored place = true) :
    crosses more place = true := by
  obtain ⟨pattern, member, meets⟩ := List.any_eq_true.mp crossed
  exact List.any_eq_true.mpr ⟨pattern, among member, meets⟩

/-- The strings that are left are those without an ignored node on their way. -/
theorem strings_eq_filter (ignored : List SubtreePattern) (tree : Json) :
    strings ignored [] tree = (strings [] [] tree).filter fun string => !crosses ignored string.1 := by
  induction ignored with
  | nil => simp [crosses]
  | cons pattern rest ih =>
    rw [strings_cons, ih, List.filter_filter]
    simp only [crosses, List.any_cons, Bool.not_or]

theorem sites_eq_filter_nil (tree : Json) (ignored : List SubtreePattern) :
    sites tree ignored = (sites tree []).filter fun site => !crosses ignored site.path := by
  rw [sites, sites, strings_eq_filter, List.filter_map, List.filter_filter, List.filter_filter]
  simp only [Function.comp_def, Bool.and_comm]

/-- More patterns leave fewer placeholders, in the same order. -/
theorem sites_sublist (tree : Json) (among : ignored ⊆ more) :
    (sites tree more).Sublist (sites tree ignored) := by
  rw [sites_eq_filter_nil tree more, sites_eq_filter_nil tree ignored]
  refine List.monotone_filter_right _ fun site left => ?_
  rw [Bool.not_eq_true', ← Bool.not_eq_true] at left ⊢
  exact fun crossed => left (crosses_mono among crossed)

theorem mem_sites_iff_at? (distinct : tree.DistinctKeys) :
    ⟨path, text⟩ ∈ sites tree ignored ↔
      tree.at? path = some (.str text) ∧ Placeholder.isFull text = true ∧
        ∀ way : Path, way <+: path → way.ignoredBy ignored = false := by
  have stands : (path, text) ∈ strings [] [] tree ↔ tree.at? path = some (.str text) := by
    rw [mem_strings_nil_iff tree distinct]
    simp
  have clear : crosses ignored path = false ↔
      ∀ way : Path, way <+: path → way.ignoredBy ignored = false := by
    rw [← Bool.not_eq_true, crosses_iff]
    simp
  rw [mem_sites_iff, strings_eq_filter, List.mem_filter, stands, Bool.not_eq_true', clear]
  exact ⟨fun ⟨⟨leads, clear⟩, full⟩ => ⟨leads, full, clear⟩,
    fun ⟨leads, full, clear⟩ => ⟨⟨leads, clear⟩, full⟩⟩

theorem pairwise_sites (distinct : tree.DistinctKeys) (ignored : List SubtreePattern) :
    (sites tree ignored).Pairwise fun first second => tree.Precedes first.path second.path := by
  rw [sites, strings_eq_filter, List.pairwise_map]
  refine ((pairwise_strings_nil tree distinct []).imp ?_).filter _ |>.filter _
  rintro first second ⟨before, after, here, there, precedes⟩
  rwa [here, there]

/-- The placeholders that are found are exactly those that no ignored node is on the way to. They
come in the order of the manifest, each on its own path and none below another, and with more
ignored patterns some of them are left out. -/
theorem sites_exact (ignored : List SubtreePattern) (distinct : tree.DistinctKeys) :
    (∀ path text, ⟨path, text⟩ ∈ sites tree ignored ↔
      tree.at? path = some (.str text) ∧ Placeholder.isFull text = true ∧
        ∀ way : Path, way <+: path → way.ignoredBy ignored = false) ∧
    ((sites tree ignored).map Site.path).Nodup ∧
    ((sites tree ignored).Pairwise fun first second =>
      ¬ first.path <+: second.path ∧ ¬ second.path <+: first.path) ∧
    ((sites tree ignored).Pairwise fun first second =>
      tree.Precedes first.path second.path) ∧
    ∀ more, ignored ⊆ more → (sites tree more).Sublist (sites tree ignored) := by
  have ordered := pairwise_sites distinct ignored
  have apart := ordered.imp fun precedes => precedes.apart distinct
  refine ⟨fun path text => mem_sites_iff_at? distinct, ?_, apart, ordered,
    fun more among => sites_sublist tree among⟩
  refine List.pairwise_map.mpr (apart.imp fun parted same => ?_)
  exact parted.1 (same ▸ List.prefix_refl _)

/-- Fields come before items where their objects do, and the digits of a pattern also name a key. -/
theorem sites_exact_mixedTree :
    let tree : Json := .obj [("b", .str "((second))"),
      ("a", .arr [.str "plain", .str "((third))", .obj [("c", .str "((fourth))")]]),
      ("0", .arr [.str "((skipped))"])]
    let ignored : List SubtreePattern := [[.index 0]]
    tree.DistinctKeys ∧
      sites tree ignored = [⟨[.key "b"], "((second))"⟩, ⟨[.key "a", .index 1], "((third))"⟩,
        ⟨[.key "a", .index 2, .key "c"], "((fourth))"⟩] ∧
      tree.Precedes [.key "b"] [.key "a", .index 1] ∧
      (sites tree ([.key "b"] :: ignored)).Sublist (sites tree ignored) := by
  intro tree ignored
  have distinct : tree.DistinctKeys := by
    simp [tree, Json.DistinctKeys, Json.DistinctKeysInFields, Json.DistinctKeysInItems, Keyed.keys]
  have found : sites tree ignored = [⟨[.key "b"], "((second))"⟩,
      ⟨[.key "a", .index 1], "((third))"⟩, ⟨[.key "a", .index 2, .key "c"], "((fourth))"⟩] := by
    decide +kernel
  obtain ⟨_, _, _, ordered, fewer⟩ := sites_exact ignored distinct
  rw [found] at ordered
  exact ⟨distinct, found, (List.pairwise_cons.mp ordered).1 _ List.mem_cons_self,
    fewer _ (List.subset_cons_self _ _)⟩

end Tree

end ManifestVariables
