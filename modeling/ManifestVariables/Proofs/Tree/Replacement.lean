import ManifestVariables.Proofs.Tree.Traversal
import ManifestVariables.Tree.Replace

/-!
# Replacing one node

A step of a replacement changes the child below one step of a node and nothing else of it
(`Json.modifyChild`), so whatever is to be known of a replacement is an induction on its path with
one case. The node at the path is the new value, nodes that are neither above nor below the path
stay, and the nodes above it keep their keys and their lengths (`Json.Replaced`). A path that leads
nowhere (`Json.LeadsNowhere`) leaves the tree as it is. `Json.replaceAt_laws` puts this together
with what two replacements come to.
-/

namespace ManifestVariables

namespace Keyed

variable {κ α : Type} [DecidableEq κ] {entries : Keyed κ α} {key other : κ} {change : α → α}

theorem get?_modify_self :
    get? (modify change entries key) key = (get? entries key).map change := by
  induction entries with
  | nil => rfl
  | cons entry rest ih => by_cases same : entry.1 = key <;> simp [modify, get?, same, ih]

theorem get?_modify_of_ne (different : other ≠ key) :
    get? (modify change entries key) other = get? entries other := by
  induction entries with
  | nil => rfl
  | cons entry rest ih =>
    by_cases same : entry.1 = key
    · simp [modify, get?, same, Ne.symm different]
    · simp [modify, get?, same, ih]

/-- A change that leaves the value of a key as it is leaves everything as it is. -/
theorem modify_eq_self (unchanged : ∀ value, get? entries key = some value → change value = value) :
    modify change entries key = entries := by
  induction entries with
  | nil => rfl
  | cons entry rest ih =>
    obtain ⟨name, value⟩ := entry
    by_cases same : name = key
    · have here := unchanged value (by simp [get?, same])
      simp [modify, same, here]
    · have later := ih fun value found => unchanged value (by simpa [get?, same] using found)
      simp [modify, same, later]

theorem modify_modify_self (next : α → α) :
    modify next (modify change entries key) key = modify (next ∘ change) entries key := by
  induction entries with
  | nil => rfl
  | cons entry rest ih => by_cases same : entry.1 = key <;> simp [modify, same, ih]

theorem modify_modify_of_ne (different : key ≠ other) (next : α → α) :
    modify next (modify change entries key) other =
      modify change (modify next entries other) key := by
  induction entries with
  | nil => rfl
  | cons entry rest ih =>
    by_cases same : entry.1 = key
    · simp [modify, same, different]
    · by_cases sameToo : entry.1 = other
      · simp [modify, sameToo, Ne.symm different]
      · simp [modify, same, sameToo, ih]

end Keyed

/-- Neither of two paths leads on from the other. -/
def Path.Apart (path other : Path) : Prop :=
  ¬ path <+: other ∧ ¬ other <+: path

/-- Paths are apart if they part at their first step or behind it. -/
theorem Path.apart_cons_iff {step next : Step} {rest others : Path} :
    Path.Apart (step :: rest) (next :: others) ↔ (step = next → Path.Apart rest others) := by
  unfold Path.Apart
  rw [List.cons_prefix_cons, List.cons_prefix_cons]
  constructor
  · rintro ⟨on, back⟩ rfl
    exact ⟨fun below => on ⟨rfl, below⟩, fun below => back ⟨rfl, below⟩⟩
  · intro apart
    exact ⟨fun ⟨same, below⟩ => (apart same).1 below,
      fun ⟨same, below⟩ => (apart same.symm).2 below⟩

namespace Json

variable {tree node child value second : Json} {step other : Step} {path place way rest : Path}
  {change next : Json → Json}

/-! ### Changing one child -/

/-- The node with the child below a step changed, if there is one. -/
def modifyChild (change : Json → Json) : Step → Json → Json
  | .key name, .obj fields => .obj (Keyed.modify change fields name)
  | .index position, .arr items => .arr (items.modify position change)
  | _, node => node

theorem replaceAt_cons :
    replaceAt value (step :: rest) node = modifyChild (replaceAt value rest) step node := by
  cases step <;> cases node <;> rfl

/-- A path goes on from the child of its first step. -/
theorem at?_step (node : Json) (step : Step) (rest : Path) :
    node.at? (step :: rest) = (node.at? [step]).bind fun child => child.at? rest :=
  at?_append node [step] rest

theorem at?_modifyChild_self :
    (modifyChild change step node).at? [step] = (node.at? [step]).map change := by
  match step, node with
  | .key name, .obj fields =>
    simp only [modifyChild, at?, Keyed.get?_modify_self]
    cases Keyed.get? fields name <;> rfl
  | .index position, .arr items =>
    simp only [modifyChild, at?, List.getElem?_modify_eq]
    cases items[position]? <;> rfl
  | .key _, .arr _ | .index _, .obj _ => simp [modifyChild, at?]
  | _, .null | _, .bool _ | _, .int _ | _, .float _ | _, .str _ => simp [modifyChild, at?]

theorem at?_modifyChild_of_ne (different : other ≠ step) :
    (modifyChild change step node).at? [other] = node.at? [other] := by
  match step, node with
  | .key name, .obj fields =>
    cases other with
    | key own =>
      have apart : own ≠ name := fun same => different (congrArg Step.key same)
      simp only [modifyChild, at?, Keyed.get?_modify_of_ne apart]
    | index _ => simp [modifyChild, at?]
  | .index position, .arr items =>
    cases other with
    | key _ => simp [modifyChild, at?]
    | index own =>
      have apart : position ≠ own := fun same => different (congrArg Step.index same.symm)
      simp only [modifyChild, at?, List.getElem?_modify_ne _ _ apart]
  | .key _, .arr _ | .index _, .obj _ => rfl
  | _, .null | _, .bool _ | _, .int _ | _, .float _ | _, .str _ => simp [modifyChild]

/-- A change that leaves the child as it is leaves the node as it is. -/
theorem modifyChild_eq_self (unchanged : ∀ child, node.at? [step] = some child → change child = child) :
    modifyChild change step node = node := by
  match step, node with
  | .key name, .obj fields =>
    refine congrArg obj (Keyed.modify_eq_self fun child found => unchanged child ?_)
    simp [at?, found]
  | .index position, .arr items =>
    refine congrArg arr (List.ext_getElem? fun place => ?_)
    by_cases same : position = place
    · subst same
      rw [List.getElem?_modify_eq]
      cases found : items[position]? with
      | none => rfl
      | some child => exact congrArg some (unchanged child (by simp [at?, found]))
    · rw [List.getElem?_modify_ne _ _ same]
  | .key _, .arr _ | .index _, .obj _ => rfl
  | _, .null | _, .bool _ | _, .int _ | _, .float _ | _, .str _ => simp [modifyChild]

theorem modifyChild_modifyChild_self :
    modifyChild next step (modifyChild change step node) =
      modifyChild (next ∘ change) step node := by
  match step, node with
  | .key name, .obj fields => exact congrArg obj (Keyed.modify_modify_self next)
  | .index position, .arr items => exact congrArg arr (List.modify_modify_eq change next position items)
  | .key _, .arr _ | .index _, .obj _ => rfl
  | _, .null | _, .bool _ | _, .int _ | _, .float _ | _, .str _ => simp [modifyChild]

theorem modifyChild_comm (different : step ≠ other) :
    modifyChild next other (modifyChild change step node) =
      modifyChild change step (modifyChild next other node) := by
  match step, other, node with
  | .key name, .key own, .obj fields =>
    have apart : name ≠ own := fun same => different (congrArg Step.key same)
    exact congrArg obj (Keyed.modify_modify_of_ne apart next)
  | .index position, .index own, .arr items =>
    have apart : position ≠ own := fun same => different (congrArg Step.index same)
    exact congrArg arr (List.modify_modify_ne change next items apart)
  | .key _, .key _, .arr _ | .index _, .index _, .obj _ => rfl
  | .key _, .index _, .obj _ | .key _, .index _, .arr _ | .index _, .key _, .obj _
  | .index _, .key _, .arr _ => rfl
  | _, _, .null | _, _, .bool _ | _, _, .int _ | _, _, .float _ | _, _, .str _ => simp [modifyChild]

/-! ### One replacement -/

/-- A node above the path has the rest of the replacement made in it. -/
theorem at?_replaceAt_append : (replaceAt value (way ++ rest) tree).at? way =
    (tree.at? way).map (replaceAt value rest) := by
  induction way generalizing tree with
  | nil => rfl
  | cons step way ih =>
    rw [List.cons_append, replaceAt_cons, at?_step, at?_modifyChild_self, Option.bind_map,
      at?_step tree step way, Option.map_bind]
    exact congrArg _ (funext fun child => ih)

/-- A replacement does not reach what is neither above nor below it. -/
theorem at?_replaceAt_of_apart (apart : Path.Apart path place) :
    (replaceAt value path tree).at? place = tree.at? place := by
  induction path generalizing tree place with
  | nil => exact absurd List.nil_prefix apart.1
  | cons step rest ih =>
    cases place with
    | nil => exact absurd List.nil_prefix apart.2
    | cons other others =>
      rw [replaceAt_cons, at?_step, at?_step tree other others]
      by_cases same : step = other
      · subst same
        rw [at?_modifyChild_self, Option.bind_map]
        exact congrArg _ (funext fun child => ih (Path.apart_cons_iff.mp apart rfl))
      · rw [at?_modifyChild_of_ne (Ne.symm same)]

/-- Where the value is there already, or nothing is there, a replacement changes nothing. -/
theorem replaceAt_eq_self (unchanged : ∀ node, tree.at? path = some node → value = node) :
    replaceAt value path tree = tree := by
  induction path generalizing tree with
  | nil => exact unchanged tree rfl
  | cons step rest ih =>
    rw [replaceAt_cons]
    refine modifyChild_eq_self fun child found => ih fun node leads => unchanged node ?_
    rw [at?_step, found, Option.bind_some, leads]

/-! ### Two replacements -/

theorem replaceAt_replaceAt_self :
    replaceAt second path (replaceAt value path tree) = replaceAt second path tree := by
  induction path generalizing tree with
  | nil => rfl
  | cons step rest ih =>
    rw [replaceAt_cons, replaceAt_cons, replaceAt_cons, modifyChild_modifyChild_self]
    exact congrArg (modifyChild · step tree) (funext fun child => ih)

theorem replaceAt_comm (apart : Path.Apart path place) :
    replaceAt second place (replaceAt value path tree) =
      replaceAt value path (replaceAt second place tree) := by
  induction path generalizing tree place with
  | nil => exact absurd List.nil_prefix apart.1
  | cons step rest ih =>
    cases place with
    | nil => exact absurd List.nil_prefix apart.2
    | cons other others =>
      simp only [replaceAt_cons]
      by_cases same : step = other
      · subst same
        rw [modifyChild_modifyChild_self, modifyChild_modifyChild_self]
        have below := Path.apart_cons_iff.mp apart rfl
        exact congrArg (modifyChild · step tree) (funext fun child => ih below)
      · exact modifyChild_comm same

/-! ### Paths that lead nowhere -/

/-- A path that leads nowhere stops at a node without such a key, at an array without such a
position, or at a node of another kind. -/
inductive LeadsNowhere : Json → Path → Prop where
  | missingKey {fields : List (String × Json)} {name : String} {rest : Path}
      (missing : name ∉ Keyed.keys fields) : LeadsNowhere (.obj fields) (.key name :: rest)
  | outOfRange {items : List Json} {position : Nat} {rest : Path}
      (beyond : items.length ≤ position) : LeadsNowhere (.arr items) (.index position :: rest)
  | noObject {node : Json} {name : String} {rest : Path} (kind : ∀ fields, node ≠ .obj fields) :
      LeadsNowhere node (.key name :: rest)
  | noArray {node : Json} {position : Nat} {rest : Path} (kind : ∀ items, node ≠ .arr items) :
      LeadsNowhere node (.index position :: rest)
  | further {node child : Json} {step : Step} {rest : Path} (leads : node.at? [step] = some child)
      (nowhere : LeadsNowhere child rest) : LeadsNowhere node (step :: rest)

/-- A step leads to no child in these cases and in no other. -/
theorem leadsNowhere_of_step (none : node.at? [step] = none) : LeadsNowhere node (step :: rest) := by
  match step, node with
  | .key name, .obj fields =>
    refine .missingKey fun member => ?_
    obtain ⟨child, found⟩ := Option.isSome_iff_exists.mp (Keyed.mem_keys_iff.mp member)
    simp [at?, found] at none
  | .index position, .arr items =>
    refine .outOfRange (Nat.le_of_not_lt fun within => ?_)
    simp [at?, within] at none
  | .key _, .null | .key _, .bool _ | .key _, .int _ | .key _, .float _ | .key _, .str _
  | .key _, .arr _ => exact .noObject fun _ => nofun
  | .index _, .null | .index _, .bool _ | .index _, .int _ | .index _, .float _ | .index _, .str _
  | .index _, .obj _ => exact .noArray fun _ => nofun

theorem at?_eq_none_iff : tree.at? path = none ↔ LeadsNowhere tree path := by
  constructor
  · intro none
    induction path generalizing tree with
    | nil => cases none
    | cons step rest ih =>
      cases found : tree.at? [step] with
      | none => exact leadsNowhere_of_step found
      | some child =>
        rw [at?_step, found, Option.bind_some] at none
        exact .further found (ih none)
  · intro nowhere
    induction nowhere with
    | missingKey missing =>
      rw [Keyed.mem_keys_iff, Keyed.contains, Bool.not_eq_true, Option.isSome_eq_false_iff,
        Option.isNone_iff_eq_none] at missing
      simp [at?, missing]
    | outOfRange beyond => simp [at?, List.getElem?_eq_none beyond]
    | @noObject node name rest kind =>
      cases node with
      | obj fields => exact absurd rfl (kind fields)
      | _ => simp [at?]
    | @noArray node position rest kind =>
      cases node with
      | arr items => exact absurd rfl (kind items)
      | _ => simp [at?]
    | further leads _ ih => rw [at?_step, leads, Option.bind_some, ih]

/-! ### The laws -/

/-- What a tree with a node at a path is changed to where a value replaces the node. -/
structure Replaced (value : Json) (path : Path) (tree changed : Json) : Prop where
  here : changed.at? path = some value
  aside : ∀ place, Path.Apart path place → changed.at? place = tree.at? place
  /-- Objects on the way keep their keys in their order. -/
  objects : ∀ way step rest fields, path = way ++ step :: rest →
    tree.at? way = some (.obj fields) →
    ∃ others, changed.at? way = some (.obj others) ∧ Keyed.keys others = Keyed.keys fields
  /-- Arrays on the way keep their length. -/
  arrays : ∀ way step rest items, path = way ++ step :: rest →
    tree.at? way = some (.arr items) →
    ∃ others, changed.at? way = some (.arr others) ∧ others.length = items.length

theorem replaced_of_at? (leads : tree.at? path = some node) :
    Replaced value path tree (replaceAt value path tree) where
  here := by
    have replaced : (replaceAt value (path ++ []) tree).at? path = (tree.at? path).map _ :=
      at?_replaceAt_append
    rwa [List.append_nil, leads] at replaced
  aside := fun place apart => at?_replaceAt_of_apart apart
  objects := by
    rintro way step rest fields rfl above
    rw [at?_replaceAt_append, above, Option.map_some, replaceAt_cons]
    cases step with
    | key name => exact ⟨_, rfl, Keyed.keys_modify _ _ _⟩
    | index position => exact ⟨fields, rfl, rfl⟩
  arrays := by
    rintro way step rest items rfl above
    rw [at?_replaceAt_append, above, Option.map_some, replaceAt_cons]
    cases step with
    | key name => exact ⟨items, rfl, rfl⟩
    | index position => exact ⟨_, rfl, List.length_modify _ _ _⟩

/-- A replacement puts the value in the place of the node at the path, if there is one, and changes
nothing else. Replacements at paths that are apart commute, and of two at one path the second
counts. -/
theorem replaceAt_laws (value : Json) (path : Path) (tree : Json) :
    (∀ node, tree.at? path = some node → Replaced value path tree (replaceAt value path tree)) ∧
      (tree.at? path = none ↔ LeadsNowhere tree path) ∧
      (LeadsNowhere tree path → replaceAt value path tree = tree) ∧
      (tree.at? path = some value → replaceAt value path tree = tree) ∧
      (∀ second place, Path.Apart path place →
        replaceAt second place (replaceAt value path tree) =
          replaceAt value path (replaceAt second place tree)) ∧
      ∀ second, replaceAt second path (replaceAt value path tree) = replaceAt second path tree := by
  refine ⟨fun node => replaced_of_at?, at?_eq_none_iff, fun nowhere => ?_, fun held => ?_,
    fun second place => replaceAt_comm, fun second => replaceAt_replaceAt_self⟩
  · have none := at?_eq_none_iff.mpr nowhere
    exact replaceAt_eq_self fun node leads => nomatch none.symm.trans leads
  · exact replaceAt_eq_self fun node leads => Option.some.inj (held.symm.trans leads)

/-- A string below an object in an array, a number beside the array, and a path into a string. -/
theorem replaceAt_laws_nested :
    let tree : Json := .obj [("a", .arr [.obj [("b", .str "((x))")], .str "s"]), ("c", .int 1)]
    let path : Path := [.key "a", .index 0, .key "b"]
    let nowhere : Path := [.key "a", .index 1, .key "b"]
    let value : Json := .obj [("nested", .bool true)]
    tree.at? path = some (.str "((x))") ∧ LeadsNowhere tree nowhere ∧
      Path.Apart path [.key "c"] ∧
      Replaced value path tree
        (.obj [("a", .arr [.obj [("b", value)], .str "s"]), ("c", .int 1)]) ∧
      replaceAt value nowhere tree = tree ∧
      replaceAt .null [.key "c"] (replaceAt value path tree) =
        replaceAt value path (replaceAt .null [.key "c"] tree) := by
  intro tree path nowhere value
  have leads : tree.at? path = some (.str "((x))") := by
    simp [tree, path, at?, Keyed.get?]
  have blocked : tree.at? nowhere = none := by
    simp [tree, nowhere, at?, Keyed.get?]
  have apart : Path.Apart path [.key "c"] := by
    simp [path, Path.Apart]
  have changed : replaceAt value path tree =
      .obj [("a", .arr [.obj [("b", value)], .str "s"]), ("c", .int 1)] := by
    simp [tree, path, replaceAt, Keyed.modify]
  obtain ⟨replaced, _, _, _, commutes, _⟩ := replaceAt_laws value path tree
  obtain ⟨_, none_iff, unchanged, _⟩ := replaceAt_laws value nowhere tree
  have stops := none_iff.mp blocked
  exact ⟨leads, stops, apart, changed ▸ replaced _ leads, unchanged stops, commutes _ _ apart⟩

end Json

end ManifestVariables
