import ManifestVariables.Name.Basic

/-!
# Relative and absolute names

Where names must be absolute, `Name.requireAbsolute` refuses the relative ones among
them, each once. A name that is absolute has an absolute base
(`Name.isAbsolute_base`), which no qualification changes.
-/

namespace ManifestVariables

namespace Text

/-- The part up to the last separator starts where the text does, if that is with a
separator. -/
theorem exists_splitLast_cons (separator : Char) (rest : List Char) :
    ∃ tail, (splitLast separator (separator :: rest)).1 = separator :: tail := by
  have whole := splitLast_append separator (separator :: rest)
  cases front : (splitLast separator (separator :: rest)).1 with
  | cons first tail =>
    rw [front] at whole
    obtain ⟨rfl, _⟩ := List.cons.inj whole
    exact ⟨tail, rfl⟩
  | nil =>
    -- Behind the last separator there is none.
    rw [front, List.nil_append] at whole
    have among : separator ∈ (splitLast separator (separator :: rest)).2 := by
      rw [whole]
      exact List.mem_cons_self
    rw [splitLast, List.mem_reverse] at among
    have different := List.all_eq_true.mp List.all_takeWhile _ among
    simp at different

end Text

namespace Name

variable {name director deployment : String} {names : List String}

theorem foldl_relativeNames (names found : List String) :
    names.foldl (fun found name =>
        if isAbsolute name || found.contains name then found else found ++ [name]) found =
      found ++ (names.filter fun name => !isAbsolute name && !found.contains name).eraseDups := by
  induction names generalizing found with
  | nil => simp
  | cons name rest ih =>
    rw [List.foldl_cons, ih]
    by_cases passed : (isAbsolute name || found.contains name) = true
    · have dropped : ¬ (!isAbsolute name && !found.contains name) = true := by
        rw [← Bool.not_or, passed]
        exact Bool.false_ne_true
      rw [if_pos passed, List.filter_cons, if_neg dropped]
    · have kept : (!isAbsolute name && !found.contains name) = true := by
        rw [← Bool.not_or, Bool.not_eq_true']
        exact Bool.eq_false_iff.mpr passed
      rw [if_neg passed, List.filter_cons, if_pos kept, List.eraseDups_cons, List.filter_filter,
        List.append_assoc, List.singleton_append]
      refine congrArg (fun others => found ++ name :: List.eraseDups others)
        (List.filter_congr fun other _ => ?_)
      by_cases same : other = name <;> simp [same, Bool.and_comm]

/-- The relative names are those that do not start with a slash, each once, in order of
first appearance. -/
theorem relativeNames_eq (names : List String) :
    relativeNames names = (names.filter fun name => !isAbsolute name).eraseDups := by
  rw [relativeNames, foldl_relativeNames]
  simp

theorem requireAbsolute_eq (names : List String) :
    requireAbsolute names =
      if relativeNames names = [] then .ok () else .error (relativeNames names) := by
  unfold requireAbsolute
  split
  next none => rw [if_pos none]
  next some => rw [if_neg some]

/-- The base of an absolute name is absolute. -/
theorem isAbsolute_base (absolute : isAbsolute name = true) :
    isAbsolute (NamePath.parse name).base = true := by
  obtain ⟨rest, whole⟩ : ∃ rest, name.toList = '/' :: rest := by
    simp only [isAbsolute, decide_eq_true_eq] at absolute
    exact List.head?_eq_some_iff.mp absolute
  obtain ⟨tail, front⟩ := Text.exists_splitLast_cons '/' rest
  simp only [NamePath.parse, whole]
  split <;> simp [isAbsolute, front]

theorem qualify_of_absolute (absolute : isAbsolute name = true) :
    qualify director deployment name = name :=
  if_pos absolute

end Name

end ManifestVariables
