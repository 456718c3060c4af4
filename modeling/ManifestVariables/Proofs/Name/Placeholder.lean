import Mathlib.Data.List.Infix
import ManifestVariables.Name.Placeholder

/-!
# The placeholder in a text

Placeholders are looked for twice: everywhere in a text, whatever stands between the
parentheses, and as the whole of a text, in which case its name is checked and used. The
first search skips what it has found, and still misses nothing, because placeholders do not
overlap (`Placeholder.bodies_eq`). A text that is one placeholder is found by it as
well, with the same name (`Placeholder.rawNames_of_name_eq_ok`), so what is found out about
all raw names holds of every name that is used.
-/

namespace ManifestVariables.Placeholder

variable {text : String} {body rest : List Char}

/-- A placeholder at the start of a text is a body between its parentheses. -/
theorem tokenAt?_eq_some_iff {chars : List Char} :
    tokenAt? chars = some (body, rest) ↔
      chars = wrap body ++ rest ∧ ∀ c ∈ body, isBodyChar c = true := by
  constructor
  · intro found
    unfold tokenAt? at found
    split at found
    next inner =>
      split at found
      next tail closed =>
        obtain ⟨rfl, rfl⟩ := Prod.mk.inj (Option.some.inj found)
        refine ⟨?_, fun c member => ?_⟩
        · have whole := inner.takeWhile_append_dropWhile (p := isBodyChar)
          rw [closed] at whole
          simp only [wrap, List.cons_append, List.append_assoc, List.nil_append, whole]
        · exact (List.all_eq_true.mp List.all_takeWhile) c member
      · cases found
    · cases found
  · rintro ⟨rfl, inside⟩
    have closing : isBodyChar ')' = false := rfl
    simp [wrap, tokenAt?, List.dropWhile_append_of_pos inside, List.takeWhile_append_of_pos inside,
      closing]

/-- A full placeholder is a body between double parentheses. -/
theorem isFull_iff :
    isFull text = true ↔
      ∃ body, text.toList = wrap body ∧ body ≠ [] ∧ ∀ c ∈ body, isBodyChar c = true := by
  unfold isFull
  constructor
  · intro full
    split at full
    next body rest found =>
      obtain ⟨whole, inside⟩ := tokenAt?_eq_some_iff.mp found
      simp only [Bool.and_eq_true, Bool.not_eq_true', List.isEmpty_eq_false_iff,
        List.isEmpty_iff] at full
      obtain ⟨something, rfl⟩ := full
      exact ⟨body, by rw [whole, List.append_nil], something, inside⟩
    · cases full
  · rintro ⟨body, whole, something, inside⟩
    have found : tokenAt? text.toList = some (body, []) :=
      tokenAt?_eq_some_iff.mpr ⟨by rw [whole, List.append_nil], inside⟩
    simp [found, something]

theorem bodiesFrom_of_length_le {skip : Nat} {chars : List Char} (long : chars.length ≤ skip) :
    bodiesFrom skip chars = [] := by
  induction chars generalizing skip with
  | nil => cases skip <;> rfl
  | cons c rest ih =>
    obtain ⟨less, rfl⟩ : ∃ less, skip = less + 1 := ⟨skip - 1, by simp at long; omega⟩
    exact ih (by simpa using long)

/-- The only placeholder in a full one is itself. -/
theorem bodies_of_toList_eq_wrap (whole : text.toList = wrap body)
    (inside : ∀ c ∈ body, isBodyChar c = true) : bodies text = [body] := by
  have found : tokenAt? (wrap body) = some (body, []) :=
    tokenAt?_eq_some_iff.mpr ⟨(List.append_nil _).symm, inside⟩
  rw [bodies, whole]
  simp only [wrap, List.cons_append] at found ⊢
  rw [bodiesFrom, found]
  exact congrArg _ (bodiesFrom_of_length_le (by simp))

/-! ### Placeholders anywhere in a text -/

/-- The bodies of the placeholders that start anywhere in a text, in order of position. -/
def bodiesAnywhere (chars : List Char) : List (List Char) :=
  chars.tails.filterMap fun suffix => (tokenAt? suffix).map Prod.fst

/-- A placeholder with the body stands somewhere in a text. -/
def Occurs (body : List Char) (text : String) : Prop :=
  ∃ before after, text.toList = before ++ wrap body ++ after ∧ ∀ c ∈ body, isBodyChar c = true

theorem bodiesAnywhere_of_found {found tail : List Char} {c : Char}
    (here : tokenAt? (c :: rest) = some (found, tail)) :
    bodiesAnywhere (c :: rest) = found :: bodiesAnywhere rest := by
  rw [bodiesAnywhere, List.tails_cons]
  exact List.filterMap_cons_some (by rw [here]; rfl)

theorem bodiesAnywhere_of_none {c : Char} (none : tokenAt? (c :: rest) = none) :
    bodiesAnywhere (c :: rest) = bodiesAnywhere rest := by
  rw [bodiesAnywhere, List.tails_cons]
  exact List.filterMap_cons_none (by rw [none]; rfl)

/-- A part of a text in which no placeholder starts adds nothing to those behind it. -/
theorem bodiesAnywhere_append {front tail : List Char}
    (none : ∀ before after, front = before ++ after → after ≠ [] →
      tokenAt? (after ++ tail) = none) :
    bodiesAnywhere (front ++ tail) = bodiesAnywhere tail := by
  induction front with
  | nil => rfl
  | cons c rest ih =>
    have here : tokenAt? (c :: (rest ++ tail)) = _ := none [] (c :: rest) rfl (List.cons_ne_nil _ _)
    rw [List.cons_append, bodiesAnywhere_of_none here]
    exact ih fun before after same => none (c :: before) after (congrArg _ same)

theorem mem_bodiesAnywhere_iff : body ∈ bodiesAnywhere text.toList ↔ Occurs body text := by
  simp only [bodiesAnywhere, List.mem_filterMap, List.mem_tails, Option.map_eq_some_iff]
  constructor
  · rintro ⟨suffix, ⟨before, whole⟩, ⟨found, after⟩, here, rfl⟩
    obtain ⟨rfl, inside⟩ := tokenAt?_eq_some_iff.mp here
    exact ⟨before, after, by rw [← whole, List.append_assoc], inside⟩
  · rintro ⟨before, after, whole, inside⟩
    have behind : wrap body ++ after <:+ text.toList :=
      ⟨before, by rw [whole, List.append_assoc]⟩
    exact ⟨_, behind, _, tokenAt?_eq_some_iff.mpr ⟨rfl, inside⟩, rfl⟩

/-- Behind its two opening parentheses a placeholder has no other. -/
theorem getElem?_wrap_ne {position : Nat} (inside : ∀ c ∈ body, isBodyChar c = true)
    (behind : 2 ≤ position) : (wrap body)[position]? ≠ some '(' := by
  obtain ⟨later, rfl⟩ := Nat.exists_eq_add_of_le' behind
  intro opening
  have among : '(' ∈ body ++ [')', ')'] := List.mem_of_getElem? (i := later) opening
  rcases List.mem_append.mp among with within | closing
  · cases inside _ within
  · simp at closing

/-- A placeholder that starts behind the start of another one starts behind its end. -/
theorem length_le_of_wrap_append_eq {other before after tail : List Char}
    (inside : ∀ c ∈ other, isBodyChar c = true) (later : before ≠ [])
    (same : wrap other ++ tail = before ++ wrap body ++ after) :
    other.length + 4 ≤ before.length := by
  refine Nat.le_of_not_lt fun overlapping => ?_
  have positive : 0 < before.length := List.length_pos_iff.mpr later
  have whole : (wrap other).length = other.length + 4 := by simp [wrap]
  -- Two opening parentheses in a row would stand within the other placeholder.
  have first : (before ++ wrap body ++ after)[before.length]? = some '(' := by simp [wrap]
  have second : (before ++ wrap body ++ after)[before.length + 1]? = some '(' := by
    simp [wrap]
  rw [← same] at first second
  by_cases last : before.length = other.length + 3
  · rw [List.getElem?_append_left (by omega)] at first
    exact getElem?_wrap_ne inside (by omega) first
  · rw [List.getElem?_append_left (by omega)] at second
    exact getElem?_wrap_ne inside (by omega) second

/-- Within a placeholder, behind its first character, no other one starts. -/
theorem tokenAt?_within {c : Char} {before after tail : List Char}
    (inside : ∀ c ∈ body, isBodyChar c = true) (whole : wrap body = c :: before ++ after)
    (some : after ≠ []) : tokenAt? (after ++ tail) = none := by
  cases found : tokenAt? (after ++ tail) with
  | none => rfl
  | some token =>
    obtain ⟨same, _⟩ := tokenAt?_eq_some_iff.mp found
    have apart := length_le_of_wrap_append_eq inside (List.cons_ne_nil c before)
      (show wrap body ++ tail = c :: before ++ wrap token.1 ++ token.2 by
        rw [whole, List.append_assoc, List.append_assoc, same])
    have long := congrArg List.length whole
    have positive := List.length_pos_iff.mpr some
    simp [wrap] at apart long
    omega

/-- The search finds the placeholders that start behind what it skips. -/
theorem bodiesFrom_eq (skip : Nat) (chars : List Char) :
    bodiesFrom skip chars = bodiesAnywhere (chars.drop skip) := by
  induction skip, chars using bodiesFrom.induct with
  | case1 skip => cases skip <;> rfl
  | case2 skip c rest ih => exact ih
  | case3 c rest found tail here ih =>
    obtain ⟨whole, inside⟩ := tokenAt?_eq_some_iff.mp here
    obtain ⟨front, opened, rfl⟩ : ∃ front, wrap found = c :: front ∧ rest = front ++ tail := by
      obtain ⟨rfl, rfl⟩ := List.cons.inj whole
      exact ⟨_, rfl, rfl⟩
    -- What is skipped with the placeholder that was found hides no start of another one.
    have hidden : bodiesAnywhere (front ++ tail) = bodiesAnywhere tail :=
      bodiesAnywhere_append fun before after same some =>
        tokenAt?_within inside (opened.trans (congrArg (c :: ·) same)) some
    have skipped : front.length = found.length + 3 := by
      have long := congrArg List.length opened
      simp [wrap] at long
      omega
    rw [bodiesFrom, here]
    dsimp only
    rw [ih, ← skipped, List.drop_left, List.drop_zero, bodiesAnywhere_of_found here, hidden]
  | case4 c rest none ih =>
    rw [bodiesFrom, none, ih, List.drop_zero, List.drop_zero, bodiesAnywhere_of_none none]

/-- The search finds the placeholders that start anywhere in a text, in order of position. -/
theorem bodies_eq (text : String) : bodies text = bodiesAnywhere text.toList :=
  bodiesFrom_eq 0 text.toList

theorem body?_wrap (body : List Char) : body? (wrap body) = some body := by
  simp [body?, wrap]

theorem body?_eq_some_iff {chars : List Char} : body? chars = some body ↔ chars = wrap body := by
  constructor
  · intro found
    unfold body? at found
    split at found
    next rest =>
      split at found
      next reversed same =>
        cases found
        rw [← List.reverse_reverse rest, same]
        simp [wrap]
      · cases found
    · cases found
  · rintro rfl
    exact body?_wrap body

/-- The name that is read from a text is what stands between its parentheses, and has passed
the check. -/
theorem name_eq_ok_iff {found : String} :
    name text = .ok found ↔ ∃ body, text.toList = wrap body ∧ stripBang body = found.toList ∧
      Name.validate found = .ok () := by
  constructor
  · intro read
    rw [name] at read
    split at read
    · cases read
    next body inner =>
      dsimp only at read
      cases checked : Name.validate (String.ofList (stripBang body)) with
      | error => rw [checked] at read; cases read
      | ok =>
        rw [checked] at read
        cases read
        exact ⟨body, body?_eq_some_iff.mp inner, String.toList_ofList.symm, checked⟩
  · rintro ⟨body, whole, stripped, checked⟩
    rw [name, whole, body?_wrap]
    simp only [stripped, String.ofList_toList, checked]
    rfl

theorem path_eq_ok_iff {found : NamePath} :
    path text = .ok found ↔ ∃ whole, name text = .ok whole ∧ found = NamePath.parse whole := by
  rw [path]
  cases name text <;> simp [Except.map, eq_comm]

theorem path_eq_error_iff {error : NameError} :
    path text = .error error ↔ name text = .error error := by
  rw [path]
  cases name text <;> simp [Except.map]

/-- The name that is read from a full placeholder is the raw name that the search finds. -/
theorem rawNames_of_name_eq_ok {found : String} (full : isFull text = true)
    (read : name text = .ok found) : rawNames text = [found] := by
  obtain ⟨body, whole, _, inside⟩ := isFull_iff.mp full
  obtain ⟨other, again, stripped, _⟩ := name_eq_ok_iff.mp read
  rw [← body?_eq_some_iff, whole, body?_wrap] at again
  obtain rfl := Option.some.inj again
  rw [rawNames, bodies_of_toList_eq_wrap whole inside, List.map_singleton, stripped,
    String.ofList_toList]

end ManifestVariables.Placeholder
