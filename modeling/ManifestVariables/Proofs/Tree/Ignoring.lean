import ManifestVariables.Proofs.Keyed
import ManifestVariables.Proofs.Tree.Substitution
import Mathlib.Data.List.Forall2

/-!
# Ignoring one more subtree

A string is told by the path on which it stands: the path leads to it, and to nothing else in a
tree without repeated keys, not even if steps are compared as they are shown
(`Json.eq_of_texts_eq`). One more ignored pattern takes out the strings that have a described
node on their way (`Tree.strings_cons`). So a pattern that describes the path of one string and
otherwise only paths that are shown differently takes out just this string
(`Tree.strings_cons_of_covers`).
-/

namespace ManifestVariables

/-- Positions that are shown alike are the same. -/
theorem Step.eq_of_toString_eq {position other : Nat} (same : toString position = toString other) :
    position = other := by
  have digits : Nat.toDigits 10 position = Nat.toDigits 10 other := by
    simpa only [Nat.toString_eq_repr, Nat.toList_repr] using congrArg String.toList same
  rw [← Nat.ofDigitChars_ten_toDigits (n := position), digits, Nat.ofDigitChars_ten_toDigits]

namespace Json

variable {node : Json} {path other : Path}

theorem at?_append (node : Json) (front rest : Path) :
    node.at? (front ++ rest) = (node.at? front).bind fun below => below.at? rest := by
  induction front generalizing node with
  | nil => simp [at?]
  | cons step front ih =>
    rw [List.cons_append]
    match node, step with
    | .obj fields, .key name =>
      simp only [at?]
      cases Keyed.get? fields name with
      | none => rfl
      | some child => exact ih child
    | .arr items, .index position =>
      simp only [at?]
      cases items[position]? with
      | none => rfl
      | some child => exact ih child
    | .obj _, .index _ | .arr _, .key _ | .null, _ | .bool _, _ | .int _, _ | .float _, _
    | .str _, _ => simp [at?]

/-- A path that leads to a node also leads there from every node on its way. -/
theorem isSome_at?_of_prefix (leads : (node.at? path).isSome) (way : other <+: path) :
    (node.at? other).isSome := by
  obtain ⟨rest, rfl⟩ := way
  rw [at?_append] at leads
  exact Option.isSome_of_isSome_bind leads

/-- Nothing lies below a string. -/
theorem eq_of_prefix_of_at?_str {text : String} (leads : node.at? path = some (.str text))
    (way : path <+: other) (further : (node.at? other).isSome) : other = path := by
  obtain ⟨rest, rfl⟩ := way
  rw [at?_append, leads, Option.bind_some] at further
  cases rest with
  | nil => simp
  | cons step rest => simp [at?] at further

/-- Paths that lead to nodes of one tree are equal if they are shown with the same steps: no
node has both keys and positions. -/
theorem eq_of_texts_eq (leads : (node.at? path).isSome) (too : (node.at? other).isSome)
    (same : path.map Step.text = other.map Step.text) : path = other := by
  induction path generalizing node other with
  | nil =>
    have empty := List.map_eq_nil_iff.mp same.symm
    exact empty.symm
  | cons step rest ih =>
    obtain ⟨step', rest', rfl, equal, later⟩ := List.map_eq_cons_iff.mp same.symm
    match node, step, step' with
    | .obj fields, .key name, .key name' =>
      obtain rfl : name' = name := equal
      simp only [at?] at leads too
      cases found : Keyed.get? fields name' with
      | none => simp [found] at leads
      | some child =>
        rw [found] at leads too
        rw [ih leads too later.symm]
    | .arr items, .index position, .index position' =>
      obtain rfl : position' = position := Step.eq_of_toString_eq equal
      simp only [at?] at leads too
      cases found : items[position']? with
      | none => simp [found] at leads
      | some child =>
        rw [found] at leads too
        rw [ih leads too later.symm]
    | .obj _, .key _, .index _ | .arr _, .index _, .key _ => simp [at?] at too
    | .obj _, .index _, _ | .arr _, .key _, _ | .null, _, _ | .bool _, _, _ | .int _, _, _
    | .float _, _, _ | .str _, _, _ => simp [at?] at leads

end Json

namespace SubtreePattern

variable {pattern : SubtreePattern} {path : Path}

/-- A pattern describes a path step by step. -/
theorem covers_iff_forall₂ : pattern.covers path = true ↔
    List.Forall₂ (fun pattern step => pattern.covers step = true) pattern path := by
  induction pattern generalizing path with
  | nil => cases path <;> simp [covers]
  | cons head rest ih =>
    cases path with
    | nil => simp [covers]
    | cons step steps => simp [covers, ih]

theorem length_eq_of_covers (covers : pattern.covers path = true) :
    pattern.length = path.length :=
  (covers_iff_forall₂.mp covers).length_eq

/-- Whether the pattern describes a node on the way from one place down to another. -/
def meets (pattern : SubtreePattern) (path place : Path) : Bool :=
  path.length ≤ pattern.length && pattern.covers (place.take pattern.length)

end SubtreePattern

namespace Tree

variable {ignored : List SubtreePattern} {pattern : SubtreePattern} {path place : Path}

section Places

variable {string : Path × String}

mutual

/-- The path of a string leads to it. -/
theorem at?_of_mem_strings :
    ∀ (node : Json) (path : Path), node.DistinctKeys → string ∈ strings ignored path node →
      ∃ rest, string.1 = path ++ rest ∧ node.at? rest = some (.str string.2)
  | .null, path, _, member | .bool _, path, _, member | .int _, path, _, member
  | .float _, path, _, member => by
    simp [strings] at member
  | .str text, path, _, member => by
    simp only [strings] at member
    split at member
    · cases member
    · obtain rfl := List.mem_singleton.mp member
      exact ⟨[], by simp, rfl⟩
  | .obj fields, path, distinct, member => by
    simp only [strings] at member
    split at member
    · cases member
    · obtain ⟨name, child, rest, found, place, leads⟩ :=
        at?_of_mem_stringsInFields fields path distinct.1 distinct.2 member
      exact ⟨.key name :: rest, place, by simpa [Json.at?, found] using leads⟩
  | .arr items, path, distinct, member => by
    simp only [strings] at member
    split at member
    · cases member
    · obtain ⟨index, child, rest, found, place, leads⟩ :=
        at?_of_mem_stringsInItems items path 0 distinct member
      rw [Nat.zero_add] at place
      exact ⟨.index index :: rest, place, by simpa [Json.at?, found] using leads⟩

theorem at?_of_mem_stringsInFields :
    ∀ (fields : List (String × Json)) (path : Path), (Keyed.keys fields).Nodup →
      Json.DistinctKeysInFields fields → string ∈ stringsInFields ignored path fields →
      ∃ name child rest, Keyed.get? fields name = some child ∧
        string.1 = path ++ .key name :: rest ∧ child.at? rest = some (.str string.2)
  | [], path, _, _, member => by cases member
  | (name, child) :: others, path, fresh, distinct, member => by
    rw [stringsInFields] at member
    obtain ⟨absent, fresh⟩ := List.nodup_cons.mp fresh
    rcases List.mem_append.mp member with here | later
    · obtain ⟨rest, place, leads⟩ := at?_of_mem_strings child _ distinct.1 here
      exact ⟨name, child, rest, by simp [Keyed.get?], by simpa using place, leads⟩
    · obtain ⟨other, below, rest, found, place, leads⟩ :=
        at?_of_mem_stringsInFields others path fresh distinct.2 later
      have different : name ≠ other := fun same => absent (same ▸ Keyed.mem_keys_of_get? found)
      exact ⟨other, below, rest, by simpa [Keyed.get?, different] using found, place, leads⟩

theorem at?_of_mem_stringsInItems :
    ∀ (items : List Json) (path : Path) (position : Nat), Json.DistinctKeysInItems items →
      string ∈ stringsInItems ignored path position items →
      ∃ index child rest, items[index]? = some child ∧
        string.1 = path ++ .index (position + index) :: rest ∧
        child.at? rest = some (.str string.2)
  | [], path, position, _, member => by cases member
  | child :: others, path, position, distinct, member => by
    rw [stringsInItems] at member
    rcases List.mem_append.mp member with here | later
    · obtain ⟨rest, place, leads⟩ := at?_of_mem_strings child _ distinct.1 here
      exact ⟨0, child, rest, rfl, by simpa using place, leads⟩
    · obtain ⟨index, below, rest, found, place, leads⟩ :=
        at?_of_mem_stringsInItems others path (position + 1) distinct.2 later
      exact ⟨index + 1, below, rest, found,
        by rw [place, show position + 1 + index = position + (index + 1) by omega], leads⟩

end

theorem at?_of_mem_strings_root {tree : Json} (distinct : tree.DistinctKeys)
    (member : string ∈ strings ignored [] tree) : tree.at? string.1 = some (.str string.2) := by
  obtain ⟨place, same, leads⟩ := at?_of_mem_strings tree [] distinct member
  rwa [same]

end Places

mutual

/-- No two strings stand in one place. -/
theorem nodup_strings :
    ∀ (node : Json) (path : Path), node.DistinctKeys →
      ((strings ignored path node).map Prod.fst).Nodup
  | .null, path, _ | .bool _, path, _ | .int _, path, _ | .float _, path, _ => by simp [strings]
  | .str text, path, _ => by
    simp only [strings]
    split <;> simp
  | .obj fields, path, distinct => by
    simp only [strings]
    split
    · exact List.nodup_nil
    · exact nodup_stringsInFields fields path distinct.1 distinct.2
  | .arr items, path, distinct => by
    simp only [strings]
    split
    · exact List.nodup_nil
    · exact nodup_stringsInItems items path 0 distinct

theorem nodup_stringsInFields :
    ∀ (fields : List (String × Json)) (path : Path), (Keyed.keys fields).Nodup →
      Json.DistinctKeysInFields fields →
      ((stringsInFields ignored path fields).map Prod.fst).Nodup
  | [], path, _, _ => List.nodup_nil
  | (name, child) :: others, path, fresh, distinct => by
    obtain ⟨absent, fresh⟩ := List.nodup_cons.mp fresh
    rw [stringsInFields, List.map_append]
    refine List.nodup_append.mpr ⟨nodup_strings child _ distinct.1,
      nodup_stringsInFields others path fresh distinct.2, ?_⟩
    intro here inChild there inOthers same
    obtain ⟨string, among, rfl⟩ := List.mem_map.mp inChild
    obtain ⟨string', among', rfl⟩ := List.mem_map.mp inOthers
    obtain ⟨rest, place, _⟩ := at?_of_mem_strings child _ distinct.1 among
    obtain ⟨other, _, rest', found, place', _⟩ :=
      at?_of_mem_stringsInFields others path fresh distinct.2 among'
    rw [place, place'] at same
    obtain ⟨rfl, rfl⟩ : name = other ∧ rest = rest' := by simpa using same
    exact absent (Keyed.mem_keys_of_get? found)

theorem nodup_stringsInItems :
    ∀ (items : List Json) (path : Path) (position : Nat), Json.DistinctKeysInItems items →
      ((stringsInItems ignored path position items).map Prod.fst).Nodup
  | [], path, position, _ => List.nodup_nil
  | child :: others, path, position, distinct => by
    rw [stringsInItems, List.map_append]
    refine List.nodup_append.mpr ⟨nodup_strings child _ distinct.1,
      nodup_stringsInItems others path (position + 1) distinct.2, ?_⟩
    intro here inChild there inOthers same
    obtain ⟨string, among, rfl⟩ := List.mem_map.mp inChild
    obtain ⟨string', among', rfl⟩ := List.mem_map.mp inOthers
    obtain ⟨rest, place, _⟩ := at?_of_mem_strings child _ distinct.1 among
    obtain ⟨index, _, rest', _, place', _⟩ :=
      at?_of_mem_stringsInItems others path (position + 1) distinct.2 among'
    rw [place, place'] at same
    have equal : position = position + 1 + index ∧ rest = rest' := by simpa using same
    omega

end

/-! ### What one more pattern takes out -/

theorem ignoredBy_cons (path : Path) (pattern : SubtreePattern) (ignored : List SubtreePattern) :
    path.ignoredBy (pattern :: ignored) = (pattern.covers path || path.ignoredBy ignored) := rfl

/-- The part of a way down to a node of the pattern's depth is the way to this node. -/
theorem take_of_length_eq (below : path <+: place) (same : pattern.length = path.length) :
    place.take pattern.length = path := by
  rw [same]
  exact (List.prefix_iff_eq_take.mp below).symm

/-- The way to a place from a node that is described meets the pattern. -/
theorem meets_of_covers (covers : pattern.covers path = true) (below : path <+: place) :
    pattern.meets path place = true := by
  have same := SubtreePattern.length_eq_of_covers covers
  rw [SubtreePattern.meets, take_of_length_eq below same, covers, same]
  simp

/-- A node that is not described may be left out of a way. -/
theorem meets_step {step : Step} (open_ : pattern.covers path = false)
    (below : path ++ [step] <+: place) :
    pattern.meets (path ++ [step]) place = pattern.meets path place := by
  simp only [SubtreePattern.meets, List.length_append, List.length_singleton]
  by_cases same : pattern.length = path.length
  · rw [take_of_length_eq ((List.prefix_append _ _).trans below) same, open_]
    simp
  · have later : path.length + 1 ≤ pattern.length ↔ path.length ≤ pattern.length := by omega
    rw [decide_eq_decide.mpr later]

/-- What one more pattern takes out at and below a node, if it takes out as much below it. -/
theorem strings_cons_of_below {below more : List (Path × String)}
    (within : ∀ string ∈ below, path <+: string.1)
    (rest : pattern.covers path = false →
      more = below.filter fun string => !pattern.meets path string.1) :
    (if path.ignoredBy (pattern :: ignored) then [] else more) =
      (if path.ignoredBy ignored then [] else below).filter
        fun string => !pattern.meets path string.1 := by
  rw [ignoredBy_cons]
  by_cases covers : pattern.covers path = true
  · have met : ∀ string ∈ below, pattern.meets path string.1 = true := fun string member =>
      meets_of_covers covers (within string member)
    have none : below.filter (fun string => !pattern.meets path string.1) = [] :=
      List.filter_eq_nil_iff.mpr fun string member => by simp [met string member]
    rw [covers, Bool.true_or, if_pos rfl]
    split
    · rfl
    · exact none.symm
  · rw [Bool.not_eq_true] at covers
    rw [covers, Bool.false_or, rest covers]
    split <;> rfl

/-- The strings below a child that an open node's pattern leaves. -/
theorem filter_meets_step {step : Step} {below : List (Path × String)}
    (open_ : pattern.covers path = false)
    (within : ∀ string ∈ below, path ++ [step] <+: string.1) :
    (below.filter fun string => !pattern.meets (path ++ [step]) string.1) =
      below.filter fun string => !pattern.meets path string.1 :=
  List.filter_congr fun string member => by rw [meets_step open_ (within string member)]

mutual

/-- One more pattern takes out the strings whose way from the root meets it. -/
theorem strings_cons (pattern : SubtreePattern) (ignored : List SubtreePattern) :
    ∀ (node : Json) (path : Path), strings (pattern :: ignored) path node =
      (strings ignored path node).filter fun string => !pattern.meets path string.1
  | .null, path | .bool _, path | .int _, path | .float _, path => by simp [strings]
  | .str text, path => by
    simp only [strings]
    refine strings_cons_of_below (by simp) fun open_ => ?_
    have free : pattern.meets path path = false := by
      simp only [SubtreePattern.meets, Bool.and_eq_false_imp, decide_eq_true_eq]
      intro within
      rwa [List.take_of_length_le within]
    simp [free]
  | .obj fields, path => by
    simp only [strings]
    refine strings_cons_of_below (fun string member => ?_)
      (stringsInFields_cons pattern ignored fields path)
    obtain ⟨_, _, below⟩ := prefix_of_mem_stringsInFields ignored fields path member
    exact (List.prefix_append _ _).trans below
  | .arr items, path => by
    simp only [strings]
    refine strings_cons_of_below (fun string member => ?_)
      (stringsInItems_cons pattern ignored items path 0)
    obtain ⟨_, below⟩ := prefix_of_mem_stringsInItems ignored items path 0 member
    exact (List.prefix_append _ _).trans below

theorem stringsInFields_cons (pattern : SubtreePattern) (ignored : List SubtreePattern) :
    ∀ (fields : List (String × Json)) (path : Path), pattern.covers path = false →
      stringsInFields (pattern :: ignored) path fields =
        (stringsInFields ignored path fields).filter fun string => !pattern.meets path string.1
  | [], path, _ => rfl
  | (name, child) :: rest, path, open_ => by
    rw [stringsInFields, stringsInFields, List.filter_append, strings_cons pattern ignored child,
      stringsInFields_cons pattern ignored rest path open_,
      filter_meets_step open_ fun string => prefix_of_mem_strings ignored child _]

theorem stringsInItems_cons (pattern : SubtreePattern) (ignored : List SubtreePattern) :
    ∀ (items : List Json) (path : Path) (position : Nat), pattern.covers path = false →
      stringsInItems (pattern :: ignored) path position items =
        (stringsInItems ignored path position items).filter
          fun string => !pattern.meets path string.1
  | [], path, _, _ => rfl
  | child :: rest, path, position, open_ => by
    rw [stringsInItems, stringsInItems, List.filter_append, strings_cons pattern ignored child,
      stringsInItems_cons pattern ignored rest path (position + 1) open_,
      filter_meets_step open_ fun string => prefix_of_mem_strings ignored child _]

end

/-- A pattern that describes the path of a string, and otherwise only paths that are shown with
the same steps, takes out this string alone. -/
theorem strings_cons_of_covers {tree : Json} (distinct : tree.DistinctKeys) {text : String}
    (stands : (path, text) ∈ strings ignored [] tree) (covers : pattern.covers path = true)
    (alike : ∀ other, pattern.covers other = true →
      other.map Step.text = path.map Step.text) :
    strings (pattern :: ignored) [] tree =
      (strings ignored [] tree).filter fun string => string.1 ≠ path := by
  rw [strings_cons]
  refine List.filter_congr fun string member => ?_
  have here := at?_of_mem_strings_root distinct stands
  have leads := Option.isSome_of_eq_some (at?_of_mem_strings_root distinct member)
  have met : pattern.meets [] string.1 = true ↔ string.1 = path := by
    refine ⟨fun meets => ?_, fun equal => ?_⟩
    · have taken : pattern.covers (string.1.take pattern.length) = true := by
        simpa [SubtreePattern.meets] using meets
      have way : string.1.take pattern.length <+: string.1 := List.take_prefix _ _
      have found : string.1.take pattern.length = path :=
        Json.eq_of_texts_eq (Json.isSome_at?_of_prefix leads way)
          (Option.isSome_of_eq_some here) (alike _ taken)
      exact Json.eq_of_prefix_of_at?_str here (found ▸ way) leads
    · have all : string.1.take pattern.length = path :=
        take_of_length_eq (equal ▸ List.prefix_refl _) (SubtreePattern.length_eq_of_covers covers)
      simp [SubtreePattern.meets, all, covers]
  rw [Bool.eq_iff_iff, Bool.not_eq_true', ← Bool.not_eq_true, met, decide_eq_true_iff]

end Tree

end ManifestVariables
