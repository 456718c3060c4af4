import Mathlib.Data.List.Infix
import Mathlib.Data.List.TakeWhile
import ManifestVariables.Proofs.Name.Placeholder

/-!
# The grammar of names

`Name.Valid` lists the rules that a valid name keeps (`Name.validate_eq_ok_iff`). What stands
before its dots is a path of words: `Name.IsPath` is such a path that is relative. The base of
a valid relative name is one (`Name.isPath_base`), and so is what such a name has before any of
its slashes (`Name.Valid.isPath_of_append`).
-/

namespace ManifestVariables

namespace Text

variable {separator : Char} {text : List Char}

theorem hasDouble_eq_true_iff :
    hasDouble separator text = true ↔ [separator, separator] <:+: text := by
  induction text with
  | nil => simp [hasDouble]
  | cons first rest ih =>
    cases rest with
    | nil => simp [hasDouble, List.infix_cons_iff]
    | cons second rest =>
      have whole : [separator, separator] <:+: first :: second :: rest ↔
          (separator = first ∧ separator = second) ∨
            [separator, separator] <:+: second :: rest := by
        rw [List.infix_cons_iff]
        simp
      rw [whole, hasDouble, Bool.or_eq_true, ih, Bool.and_eq_true, decide_eq_true_eq,
        decide_eq_true_eq, @eq_comm _ first, @eq_comm _ second]

theorem pieces_append (front rest : List Char) :
    pieces separator (front ++ separator :: rest) =
      pieces separator front ++ pieces separator rest := by
  induction front with
  | nil => simp [pieces]
  | cons c front ih =>
    by_cases same : c = separator
    · simp [pieces, same, ih]
    · have some := pieces_ne_nil separator front
      revert some
      simp only [List.cons_append, pieces, same, if_false, ih]
      cases pieces separator front with
      | nil => exact fun some => absurd rfl some
      | cons piece others => exact fun _ => rfl

theorem pieces_of_not_mem (free : separator ∉ text) : pieces separator text = [text] := by
  induction text with
  | nil => rfl
  | cons c rest ih =>
    rw [pieces, if_neg (Ne.symm (List.ne_of_not_mem_cons free)),
      ih (List.not_mem_of_not_mem_cons free)]

theorem subset_of_mem_pieces {piece : List Char} (member : piece ∈ pieces separator text) :
    piece ⊆ text := by
  induction text generalizing piece with
  | nil =>
    rw [List.mem_singleton.mp member]
    exact List.Subset.refl _
  | cons c rest ih =>
    rw [pieces] at member
    split at member
    · rcases List.mem_cons.mp member with rfl | later
      · exact List.nil_subset _
      · exact List.subset_cons_of_subset _ (ih later)
    · split at member
      next first others same =>
        rcases List.mem_cons.mp member with rfl | later
        · exact List.cons_subset_cons _ (ih (same ▸ List.mem_cons_self))
        · exact List.subset_cons_of_subset _ (ih (same ▸ List.mem_cons_of_mem _ later))
      next same => exact absurd same (pieces_ne_nil separator rest)

theorem not_mem_of_mem_pieces {piece : List Char} (member : piece ∈ pieces separator text) :
    separator ∉ piece := by
  induction text generalizing piece with
  | nil =>
    rw [List.mem_singleton.mp member]
    exact List.not_mem_nil
  | cons c rest ih =>
    rw [pieces] at member
    split at member
    · rcases List.mem_cons.mp member with rfl | later
      · exact List.not_mem_nil
      · exact ih later
    next different =>
      split at member
      next first others same =>
        rcases List.mem_cons.mp member with rfl | later
        · exact List.not_mem_cons_of_ne_of_not_mem (Ne.symm different)
            (ih (same ▸ List.mem_cons_self))
        · exact ih (same ▸ List.mem_cons_of_mem _ later)
      next same => exact absurd same (pieces_ne_nil separator rest)

theorem splitLast_of_not_mem (free : separator ∉ text) : splitLast separator text = ([], text) := by
  have all : ∀ c ∈ text.reverse, decide (c ≠ separator) = true := fun c member =>
    decide_eq_true fun same => free (same ▸ List.mem_reverse.mp member)
  rw [splitLast, List.dropWhile_eq_nil_iff.mpr all, List.takeWhile_eq_self_iff.mpr all,
    List.reverse_reverse]
  rfl

theorem splitLast_append_cons {front last : List Char} (free : separator ∉ last) :
    splitLast separator (front ++ separator :: last) = (front ++ [separator], last) := by
  have all : ∀ c ∈ last.reverse, decide (c ≠ separator) = true := fun c member =>
    decide_eq_true fun same => free (same ▸ List.mem_reverse.mp member)
  have reversed : (front ++ separator :: last).reverse =
      last.reverse ++ separator :: front.reverse := by simp
  rw [splitLast, reversed, List.dropWhile_append_of_pos all, List.takeWhile_append_of_pos all]
  simp

/-- A text has no separator, or there is a last one. -/
theorem not_mem_or_exists_last (separator : Char) (text : List Char) :
    separator ∉ text ∨ ∃ front last, text = front ++ separator :: last ∧ separator ∉ last := by
  by_cases member : separator ∈ text
  · obtain ⟨before, after, reversed, free⟩ :=
      List.eq_append_cons_of_mem (List.mem_reverse.mpr member)
    refine .inr ⟨after.reverse, before.reverse, ?_, fun found => free (List.mem_reverse.mp found)⟩
    rw [← List.reverse_reverse text, reversed]
    simp
  · exact .inl member

/-- What stands before a separator stands before the last one. -/
theorem fst_splitLast_append_cons (separator : Char) (front rest : List Char) :
    (splitLast separator (front ++ separator :: rest)).1 =
      front ++ separator :: (splitLast separator rest).1 := by
  rcases not_mem_or_exists_last separator rest with free | ⟨middle, last, rfl, free⟩
  · rw [splitLast_append_cons free, splitLast_of_not_mem free]
  · have whole : front ++ separator :: (middle ++ separator :: last) =
        (front ++ separator :: middle) ++ separator :: last := by simp
    rw [whole, splitLast_append_cons free, splitLast_append_cons free]
    simp

end Text

namespace Name

variable {name : String} {text : List Char}

/-- The rules that a valid name keeps. -/
structure Valid (text : List Char) : Prop where
  nonempty : text ≠ []
  closed : text.getLast? ≠ some '/'
  single : ¬ ['/', '/'] <:+: text
  directory : '.' ∉ (Text.splitLast '/' text).1
  pieces : ∀ piece ∈ Text.pieces '/' text, hasOuterDot piece = false
  dots : ¬ ['.', '.'] <:+: text
  chars : ∀ c ∈ text, isNameChar c = true

/-- Words with a slash between neighbours. -/
structure IsPath (text : List Char) : Prop where
  nonempty : text ≠ []
  relative : text.head? ≠ some '/'
  closed : text.getLast? ≠ some '/'
  single : ¬ ['/', '/'] <:+: text
  chars : ∀ c ∈ text, isWordChar c = true ∨ c = '/'

theorem ite_error_eq_ok_iff {failed : Prop} [Decidable failed] {error : NameError}
    {rest : Except NameError Unit} :
    (if failed then .error error else rest) = .ok () ↔ ¬ failed ∧ rest = .ok () := by
  by_cases failed <;> simp_all

theorem validate_eq_ok_iff : validate name = .ok () ↔ Valid name.toList := by
  have all : (if name.toList.all isNameChar then .ok () else .error (.badCharacter name) :
      Except NameError Unit) = .ok () ↔ ∀ c ∈ name.toList, isNameChar c = true := by
    rw [← List.all_eq_true]
    cases name.toList.all isNameChar <;> simp
  simp only [validate, ite_error_eq_ok_iff, all, List.isEmpty_iff, Text.hasDouble_eq_true_iff,
    List.contains_iff_mem, List.any_eq_true, not_exists, not_and, Bool.not_eq_true]
  constructor
  · rintro ⟨nonempty, closed, single, directory, pieces, dots, _, chars⟩
    exact ⟨nonempty, closed, single, directory, pieces, dots, chars⟩
  · intro valid
    refine ⟨valid.nonempty, valid.closed, valid.single, valid.directory, valid.pieces, valid.dots,
      fun bang => ?_, valid.chars⟩
    exact absurd (valid.chars _ bang) (by decide)

/-- No piece of a text without dots starts or ends with one. -/
theorem hasOuterDot_eq_false {piece : List Char} (dotless : '.' ∉ piece) :
    hasOuterDot piece = false := by
  rw [hasOuterDot, Bool.or_eq_false_iff, decide_eq_false_iff_not, decide_eq_false_iff_not]
  exact ⟨fun first => dotless (List.mem_of_head? first),
    fun last => dotless (List.mem_of_getLast? last)⟩

theorem IsPath.dotless (path : IsPath text) : '.' ∉ text := by
  intro member
  rcases path.chars _ member with word | slash
  · exact absurd word (by decide)
  · exact absurd slash (by decide)

/-- A path is a valid name. -/
theorem IsPath.valid (path : IsPath text) : Valid text where
  nonempty := path.nonempty
  closed := path.closed
  single := path.single
  directory member := by
    refine path.dotless ?_
    rw [← Text.splitLast_append '/' text]
    exact List.mem_append_left _ member
  pieces piece member :=
    hasOuterDot_eq_false fun dot => path.dotless (Text.subset_of_mem_pieces member dot)
  dots double := path.dotless (double.subset List.mem_cons_self)
  chars c member := by
    rcases path.chars c member with word | slash
    · simp [isNameChar, word]
    · simp [isNameChar, slash]

/-- Two paths with a slash between them are a path. -/
theorem IsPath.append {front rest : List Char} (path : IsPath front) (followed : IsPath rest) :
    IsPath (front ++ '/' :: rest) where
  nonempty := by simp
  relative := by
    rw [List.head?_append_of_ne_nil _ path.nonempty]
    exact path.relative
  closed := by
    rw [List.getLast?_append_of_ne_nil _ (List.cons_ne_nil _ _),
      List.getLast?_cons_of_ne_nil followed.nonempty]
    exact followed.closed
  single := by
    rintro ⟨before, after, same⟩
    have same : before ++ '/' :: '/' :: after = front ++ '/' :: rest := by simpa using same
    rcases List.append_eq_append_iff.mp same with ⟨between, rfl, split⟩ | ⟨between, rfl, split⟩
    · match between with
      | [] =>
        obtain ⟨_, rfl⟩ := List.cons.inj split
        exact followed.relative rfl
      | [_] =>
        obtain ⟨rfl, _⟩ := List.cons.inj split
        exact path.closed List.getLast?_concat
      | _ :: _ :: others =>
        obtain ⟨rfl, later⟩ := List.cons.inj split
        obtain ⟨rfl, _⟩ := List.cons.inj later
        exact path.single ⟨before, others, by simp⟩
    · match between with
      | [] =>
        obtain ⟨_, rfl⟩ := List.cons.inj split
        exact followed.relative rfl
      | _ :: others =>
        obtain ⟨_, rfl⟩ := List.cons.inj split
        exact followed.single ⟨others, after, by simp⟩
  chars c member := by
    rcases List.mem_append.mp member with before | behind
    · exact path.chars c before
    · rcases List.mem_cons.mp behind with rfl | behind
      · exact .inr rfl
      · exact followed.chars c behind

/-- A relative start of a valid name that has no dots and does not end within a slash is a path. -/
theorem Valid.isPath_of_prefix {front : List Char} (valid : Valid text) (start : front <+: text)
    (nonempty : front ≠ []) (relative : text.head? ≠ some '/') (closed : front.getLast? ≠ some '/')
    (dotless : '.' ∉ front) : IsPath front where
  nonempty := nonempty
  relative first := relative (by
    obtain ⟨rest, rfl⟩ := start
    rw [List.head?_append, first]
    rfl)
  closed := closed
  single double := valid.single (double.trans start.isInfix)
  chars c member := by
    have allowed := valid.chars c (start.subset member)
    simp only [isNameChar, Bool.or_eq_true, decide_eq_true_eq] at allowed
    rcases allowed with (word | slash) | dot
    · exact .inl word
    · exact .inr slash
    · exact absurd (dot ▸ member) dotless

/-- What a valid relative name has before one of its slashes is a path. -/
theorem Valid.isPath_of_append {front rest : List Char} (valid : Valid (front ++ '/' :: rest))
    (relative : (front ++ '/' :: rest).head? ≠ some '/') : IsPath front := by
  have nonempty : front ≠ [] := by
    rintro rfl
    exact relative rfl
  refine valid.isPath_of_prefix (List.prefix_append _ _) nonempty relative ?_ ?_
  · intro last
    obtain ⟨shorter, rfl⟩ := List.getLast?_eq_some_iff.mp last
    exact valid.single ⟨shorter, rest, by simp⟩
  · intro dot
    have before := Text.fst_splitLast_append_cons '/' front rest
    exact valid.directory (before ▸ List.mem_append_left _ dot)

/-- The first word of a text that does not start with a dot is there, and has no dots. -/
theorem exists_pieces_cons {last : List Char} (nonempty : last ≠ [])
    (outer : hasOuterDot last = false) :
    ∃ word keys, Text.pieces '.' last = word :: keys ∧ word ≠ [] ∧ '.' ∉ word ∧ word <+: last := by
  obtain ⟨word, keys, split⟩ := List.exists_cons_of_ne_nil (Text.pieces_ne_nil '.' last)
  have dotless : '.' ∉ word := Text.not_mem_of_mem_pieces (split ▸ List.mem_cons_self)
  have whole : last = Text.join '.' (word :: keys) := by rw [← split, Text.join_pieces]
  have start : word <+: last := by
    rw [whole]
    cases keys with
    | nil => exact List.prefix_refl _
    | cons key others => exact List.prefix_append _ _
  refine ⟨word, keys, split, ?_, dotless, start⟩
  rintro rfl
  -- A text whose first word is empty is empty or starts with a dot.
  cases keys with
  | nil => exact nonempty whole
  | cons key others =>
    rw [whole, hasOuterDot, Bool.or_eq_false_iff, decide_eq_false_iff_not] at outer
    exact outer.1 rfl

/-- The base of a valid relative name is a path. -/
theorem isPath_base (valid : Valid name.toList) (relative : isAbsolute name = false) :
    IsPath (NamePath.parse name).base.toList := by
  have relative : name.toList.head? ≠ some '/' := by simpa [isAbsolute] using relative
  rcases Text.not_mem_or_exists_last '/' name.toList with free | ⟨front, last, whole, free⟩
  · have outer := valid.pieces _ (Text.pieces_of_not_mem free ▸ List.mem_singleton_self _)
    obtain ⟨word, keys, split, nonempty, dotless, start⟩ := exists_pieces_cons valid.nonempty outer
    have base : (NamePath.parse name).base.toList = word := by
      simp [NamePath.parse, Text.splitLast_of_not_mem free, split]
    rw [base]
    exact valid.isPath_of_prefix start nonempty relative
      (fun last => free (start.subset (List.mem_of_getLast? last))) dotless
  · have outer : hasOuterDot last = false := by
      refine valid.pieces _ ?_
      rw [whole, Text.pieces_append, Text.pieces_of_not_mem free]
      exact List.mem_append_right _ (List.mem_singleton_self _)
    have something : last ≠ [] := by
      rintro rfl
      exact valid.closed (by rw [whole, List.getLast?_concat])
    obtain ⟨word, keys, split, nonempty, dotless, start⟩ := exists_pieces_cons something outer
    have base : (NamePath.parse name).base.toList = front ++ '/' :: word := by
      simp [NamePath.parse, whole, Text.splitLast_append_cons free, split]
    have frontDotless : '.' ∉ front := by
      have directory := valid.directory
      rw [whole, Text.splitLast_append_cons free] at directory
      exact fun dot => directory (List.mem_append_left _ dot)
    rw [base]
    refine valid.isPath_of_prefix ?_ (by simp) relative ?_ ?_
    · obtain ⟨rest, rfl⟩ := start
      exact ⟨rest, by rw [whole]; simp⟩
    · rw [List.getLast?_append_of_ne_nil _ (List.cons_ne_nil _ _),
        List.getLast?_cons_of_ne_nil nonempty]
      exact fun last => free (start.subset (List.mem_of_getLast? last))
    · simp [frontDotless, dotless]

/-- A name that selects no part is its own base. -/
theorem base_eq_of_keys_eq_nil (none : (NamePath.parse name).keys = []) :
    (NamePath.parse name).base = name := by
  have whole := Text.splitLast_append '/' name.toList
  have joined := Text.join_pieces '.' (Text.splitLast '/' name.toList).2
  simp only [NamePath.parse] at none ⊢
  split at none
  next word keys split =>
    obtain rfl := List.map_eq_nil_iff.mp none
    rw [split] at joined
    have alone : word = (Text.splitLast '/' name.toList).2 := joined
    rw [alone, whole, String.ofList_toList]
  next split => exact absurd split (Text.pieces_ne_nil '.' _)

end Name

namespace Placeholder

variable {text name : String} {chars body : List Char}

/-- The placeholder of a name. -/
def ofName (name : String) : String :=
  String.ofList (wrap name.toList)

/-- A text without an exclamation mark is left of itself, and of itself behind such a mark. -/
theorem stripBang_eq_iff (plain : '!' ∉ chars) :
    stripBang body = chars ↔ body = chars ∨ body = '!' :: chars := by
  unfold stripBang
  split
  next rest =>
    have different : '!' :: rest ≠ chars := by
      rintro rfl
      exact plain List.mem_cons_self
    simp [different]
  next bangless =>
    have different : body ≠ '!' :: chars := bangless chars
    simp [different]

/-- A valid name is read from a placeholder in which it stands, perhaps behind an exclamation
mark. -/
theorem name_eq_ok_iff_valid :
    Placeholder.name text = .ok name ↔ Name.Valid name.toList ∧
      (text.toList = wrap name.toList ∨ text.toList = wrap ('!' :: name.toList)) := by
  have plain (valid : Name.Valid name.toList) : '!' ∉ name.toList :=
    fun bang => absurd (valid.chars _ bang) (by decide)
  rw [name_eq_ok_iff, Name.validate_eq_ok_iff]
  constructor
  · rintro ⟨body, whole, stripped, valid⟩
    refine ⟨valid, ?_⟩
    rcases (stripBang_eq_iff (plain valid)).mp stripped with rfl | rfl
    · exact .inl whole
    · exact .inr whole
  · rintro ⟨valid, whole | whole⟩
    · exact ⟨_, whole, (stripBang_eq_iff (plain valid)).mpr (.inl rfl), valid⟩
    · exact ⟨_, whole, rfl, valid⟩

/-- The name that is read from a placeholder is valid. -/
theorem valid_of_name_eq_ok (read : Placeholder.name text = .ok name) : Name.Valid name.toList :=
  (name_eq_ok_iff_valid.mp read).1

theorem name_ofName (valid : Name.Valid name.toList) :
    Placeholder.name (ofName name) = .ok name :=
  name_eq_ok_iff_valid.mpr ⟨valid, .inl String.toList_ofList⟩

/-- A text from which a name is read is exactly one placeholder. -/
theorem isFull_of_name_eq_ok (read : Placeholder.name text = .ok name) : isFull text = true := by
  obtain ⟨valid, whole⟩ := name_eq_ok_iff_valid.mp read
  have inside : ∀ c ∈ name.toList, isBodyChar c = true := by
    intro c member
    have allowed := valid.chars c member
    rw [isBodyChar, Bool.and_eq_true, decide_eq_true_iff, decide_eq_true_iff]
    constructor <;> rintro rfl <;> exact absurd allowed (by decide)
  rcases whole with whole | whole
  · exact isFull_iff.mpr ⟨_, whole, valid.nonempty, inside⟩
  · refine isFull_iff.mpr ⟨_, whole, List.cons_ne_nil _ _, ?_⟩
    exact List.forall_mem_cons.mpr ⟨by decide, inside⟩

theorem isFull_ofName (valid : Name.Valid name.toList) : isFull (ofName name) = true :=
  isFull_of_name_eq_ok (name_ofName valid)

end Placeholder

end ManifestVariables
