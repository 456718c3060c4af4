import ManifestVariables.Proofs.Name.Placeholder

/-!
# Where placeholders stand

The search for placeholders goes on behind each one that it has found. Nothing is lost by
that: an opening pair of parentheses cannot stand within another placeholder, so no two
placeholders of a text overlap (`Placeholder.StandsAt.apart`), and those that are found are
all that stand anywhere (`Placeholder.tokens_exact`).
-/

namespace ManifestVariables.Placeholder

variable {text : String} {body other : List Char} {position later : Nat}

/-- At a position of a text stand two opening parentheses, a body without parentheses, and two
closing ones. -/
def StandsAt (text : String) (position : Nat) (body : List Char) : Prop :=
  ∃ before after, text.toList = before ++ (['(', '('] ++ body ++ [')', ')']) ++ after ∧
    before.length = position ∧ '(' ∉ body ∧ ')' ∉ body

theorem isBodyChar_iff : (∀ c ∈ body, isBodyChar c = true) ↔ '(' ∉ body ∧ ')' ∉ body := by
  simp only [isBodyChar, Bool.and_eq_true, decide_eq_true_eq]
  grind

/-- A placeholder stands where it is read at the start of what follows. -/
theorem standsAt_iff :
    StandsAt text position body ↔
      position ≤ text.toList.length ∧
        ∃ after, tokenAt? (text.toList.drop position) = some (body, after) := by
  simp only [tokenAt?_eq_some_iff, isBodyChar_iff]
  constructor
  · rintro ⟨before, after, whole, rfl, inside⟩
    refine ⟨by simp [whole], after, ?_, inside⟩
    rw [whole, List.append_assoc, List.drop_left]
    simp [wrap]
  · rintro ⟨bounded, after, same, inside⟩
    refine ⟨text.toList.take position, after, ?_, List.length_take_of_le bounded, inside⟩
    calc text.toList = text.toList.take position ++ text.toList.drop position :=
          (List.take_append_drop _ _).symm
      _ = _ := by simp [same, wrap]

/-- No two placeholders of a text overlap. -/
theorem StandsAt.apart (first : StandsAt text position body) (second : StandsAt text later other)
    (behind : position < later) : position + (body.length + 4) ≤ later := by
  obtain ⟨before, after, whole, rfl, inside⟩ := first
  obtain ⟨front, rest, again, rfl, -⟩ := second
  have start : before <+: text.toList := ⟨_, by rw [whole, List.append_assoc]⟩
  have further : front <+: text.toList := ⟨_, by rw [again, List.append_assoc]⟩
  obtain ⟨between, rfl⟩ :=
    List.prefix_of_prefix_length_le start further (Nat.le_of_lt behind)
  have same : wrap body ++ after = between ++ wrap other ++ rest := by
    rw [whole] at again
    simpa [wrap] using again
  have some : between ≠ [] := by
    rintro rfl
    simp at behind
  have far := length_le_of_wrap_append_eq (isBodyChar_iff.mpr inside) some same
  rw [List.length_append]
  omega

/-- The placeholders that are read at the starts of what follows each position. -/
def standing (text : String) : List (Nat × List Char) :=
  (List.range (text.toList.length + 1)).filterMap fun position =>
    (tokenAt? (text.toList.drop position)).map fun token => (position, token.1)

theorem mem_standing_iff : (position, body) ∈ standing text ↔ StandsAt text position body := by
  simp only [standing, List.mem_filterMap, List.mem_range, Option.map_eq_some_iff, Prod.exists,
    Prod.mk.injEq, standsAt_iff]
  constructor
  · rintro ⟨_, bounded, _, after, read, rfl, rfl⟩
    exact ⟨by omega, after, read⟩
  · rintro ⟨bounded, after, read⟩
    exact ⟨position, by omega, body, after, read, rfl, rfl⟩

theorem pairwise_standing (text : String) : (standing text).Pairwise fun a b => a.1 < b.1 := by
  refine List.Pairwise.filterMap _ ?_ List.pairwise_lt_range
  intro position later behind token found other also
  obtain ⟨_, _, rfl⟩ := Option.map_eq_some_iff.mp found
  obtain ⟨_, _, rfl⟩ := Option.map_eq_some_iff.mp also
  exact behind

theorem tails_eq_map_drop (chars : List Char) :
    chars.tails = (List.range (chars.length + 1)).map fun position => chars.drop position := by
  induction chars with
  | nil => rfl
  | cons c rest ih =>
    rw [List.tails_cons, ih, List.length_cons, List.range_succ_eq_map (n := rest.length + 1)]
    simp

theorem bodies_eq_standing (text : String) : bodies text = (standing text).map Prod.snd := by
  rw [bodies_eq, bodiesAnywhere, tails_eq_map_drop, List.filterMap_map, standing,
    List.map_filterMap]
  simp [Function.comp_def]

theorem ofList_wrap (body : List Char) :
    String.ofList (wrap body) = "((" ++ String.ofList body ++ "))" := by
  rw [← String.toList_inj]
  simp [wrap]

/-- A text is one full placeholder exactly if the search finds the whole text and nothing else,
and the text is not the empty placeholder. -/
theorem isFull_iff_tokens : isFull text = true ↔ tokens text = [text] ∧ text ≠ "(())" := by
  constructor
  · intro full
    obtain ⟨body, whole, some, inside⟩ := isFull_iff.mp full
    refine ⟨?_, ?_⟩
    · rw [tokens, bodies_of_toList_eq_wrap whole inside, List.map_singleton, ← whole,
        String.ofList_toList]
    · rintro rfl
      have long := congrArg List.length whole
      exact some (List.length_eq_zero_iff.mp (by simpa [wrap] using long.symm))
  · rintro ⟨only, filled⟩
    obtain ⟨body, single, rfl⟩ := List.map_eq_singleton_iff.mp only
    have occurs : Occurs body (String.ofList (wrap body)) := by
      rw [← mem_bodiesAnywhere_iff, ← bodies_eq, single]
      exact List.mem_singleton_self body
    obtain ⟨_, _, _, inside⟩ := occurs
    refine isFull_iff.mpr ⟨body, String.toList_ofList, ?_, inside⟩
    rintro rfl
    exact filled rfl

/-- The search finds the placeholders that stand anywhere in a text, each once and in order of
position; no two of them overlap. A text is one full placeholder exactly if it is all that is
found in it, unless its parentheses are empty. -/
theorem tokens_exact (text : String) :
    (∃ found : List (Nat × List Char),
      tokens text = found.map (fun token => "((" ++ String.ofList token.2 ++ "))") ∧
      found.Pairwise (fun earlier later => earlier.1 < later.1) ∧
      ∀ position body, (position, body) ∈ found ↔ StandsAt text position body) ∧
    (∀ position body later other, StandsAt text position body → StandsAt text later other →
      position < later → position + (body.length + 4) ≤ later) ∧
    (isFull text = true ↔ tokens text = [text] ∧ text ≠ "(())") := by
  refine ⟨⟨standing text, ?_, pairwise_standing text, fun _ _ => mem_standing_iff⟩,
    fun _ _ _ _ first second behind => first.apart second behind, isFull_iff_tokens⟩
  simp only [tokens, bodies_eq_standing, List.map_map, Function.comp_def, ofList_wrap]

/-- A text with a parenthesis too many in front of its first placeholder. -/
def crowded : String := "a=(((b\n))) ((c))(())"

theorem standsAt_crowded : StandsAt crowded 3 "b\n".toList ∧ StandsAt crowded 11 "c".toList :=
  ⟨⟨"a=(".toList, ") ((c))(())".toList, by decide, rfl, by decide⟩,
    ⟨"a=(((b\n))) ".toList, "(())".toList, by decide, rfl, by decide⟩⟩

theorem tokens_exact_crowded :
    tokens crowded = ["((b\n))", "((c))", "(())"] ∧ 3 + ("b\n".toList.length + 4) ≤ 11 ∧
      tokens "((c))" = ["((c))"] ∧ "((c))" ≠ "(())" := by
  obtain ⟨first, second⟩ := standsAt_crowded
  refine ⟨by decide, ?_, ?_⟩
  · exact (tokens_exact crowded).2.1 3 "b\n".toList 11 "c".toList first second (by decide)
  · exact (tokens_exact "((c))").2.2.mp (by decide)

end ManifestVariables.Placeholder
