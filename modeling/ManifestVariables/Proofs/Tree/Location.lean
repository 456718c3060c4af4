import ManifestVariables.Proofs.Interpolation.OfflineCheck
import ManifestVariables.Proofs.Name.Spelling
import ManifestVariables.Proofs.Tree.Ignoring

/-!
# Locations as patterns

A path is shown with dots between its steps, and a pattern is read from such text: a piece that
writes a number stands for a position and for the key that is written with the digits of this
number, any other piece for a key. A number may be written with a plus sign and with zeros before
its digits, so a key of this form is misread (`Step.Misread`): it is read as a position that is
shown in another way. A path without such keys is described by what is read from its location,
and a check that is given the location of a problem as a pattern lacks just this problem
(`SubtreePattern.covers_location_iff`).
-/

namespace ManifestVariables

namespace Numeral

/-- Decimal digits that write a number, zeros allowed before them. -/
def Digits (text : List Char) (number : Nat) : Prop :=
  ∃ zeros, text = List.replicate zeros '0' ++ (toString number).toList

/-- A text that writes a number: its digits, a plus sign allowed before them. -/
def Writes (text : List Char) (number : Nat) : Prop :=
  Digits text number ∨ ∃ digits, text = '+' :: digits ∧ Digits digits number

variable {text : List Char} {number : Nat}

theorem toList_toString (number : Nat) : (toString number).toList = Nat.toDigits 10 number := by
  rw [Nat.toString_eq_repr, Nat.toList_repr]

theorem digits_toString (number : Nat) : Digits (toString number).toList number :=
  ⟨0, rfl⟩

theorem Digits.isDigit (digits : Digits text number) : text ≠ [] ∧ ∀ c ∈ text, c.isDigit = true := by
  obtain ⟨zeros, rfl⟩ := digits
  rw [toList_toString]
  refine ⟨by simp [Nat.toDigits_ne_nil], fun c member => ?_⟩
  rcases List.mem_append.mp member with zero | digit
  · rw [List.eq_of_mem_replicate zero]
    rfl
  · exact Nat.isDigit_of_mem_toDigits (by decide) (by decide) digit

theorem Digits.value (digits : Digits text number) : Nat.ofDigitChars 10 text 0 = number := by
  obtain ⟨zeros, rfl⟩ := digits
  rw [toList_toString, Nat.ofDigitChars_append, Nat.ofDigitChars_replicate_zero, Nat.mul_zero,
    Nat.ofDigitChars_ten_toDigits]

/-- A digit is the digit of its value. -/
theorem digitChar_of_isDigit {c : Char} (digit : c.isDigit = true) :
    c.toNat - '0'.toNat < 10 ∧ (c.toNat - '0'.toNat).digitChar = c := by
  obtain ⟨low, high⟩ := Char.isDigit_iff_toNat.mp digit
  have zero : '0'.toNat = 48 := rfl
  have nine : '9'.toNat = 57 := rfl
  have small : c.toNat - '0'.toNat < 10 := by omega
  refine ⟨small, Char.toNat_inj.mp ?_⟩
  rw [Nat.toNat_digitChar_of_lt_ten small]
  omega

/-- Digits write their value: another digit behind zeros leaves these zeros, and otherwise is
the last digit of the number. -/
theorem digits_of_isDigit (nonempty : text ≠ []) (digits : ∀ c ∈ text, c.isDigit = true) :
    Digits text (Nat.ofDigitChars 10 text 0) := by
  induction text using List.reverseRecOn with
  | nil => exact absurd rfl nonempty
  | append_singleton front c ih =>
    obtain ⟨small, same⟩ := digitChar_of_isDigit (digits c (by simp))
    have one : Nat.toDigits 10 (c.toNat - '0'.toNat) = [c] := by
      rw [Nat.toDigits_of_lt_base small, same]
    rw [Nat.ofDigitChars_append, Nat.ofDigitChars_cons, Nat.ofDigitChars_nil]
    by_cases empty : front = []
    · subst empty
      refine ⟨0, ?_⟩
      rw [Nat.ofDigitChars_nil, Nat.mul_zero, Nat.zero_add, toList_toString, one]
      rfl
    obtain ⟨zeros, written⟩ := ih empty fun c member => digits c (by simp [member])
    rw [toList_toString] at written
    by_cases zero : Nat.ofDigitChars 10 front 0 = 0
    · refine ⟨zeros + 1, ?_⟩
      rw [zero, Nat.toDigits_zero] at written
      rw [zero, Nat.mul_zero, Nat.zero_add, toList_toString, one, written,
        List.replicate_succ']
    · refine ⟨zeros, ?_⟩
      rw [toList_toString, ← Nat.toDigits_append_toDigits (by decide) (Nat.pos_of_ne_zero zero) small,
        one, ← List.append_assoc, ← written]

theorem digits_iff : Digits text number ↔
    text ≠ [] ∧ (∀ c ∈ text, c.isDigit = true) ∧ Nat.ofDigitChars 10 text 0 = number := by
  constructor
  · intro digits
    exact ⟨digits.isDigit.1, digits.isDigit.2, digits.value⟩
  · rintro ⟨nonempty, digits, rfl⟩
    exact digits_of_isDigit nonempty digits

theorem not_digits_plus (rest : List Char) (number : Nat) : ¬ Digits ('+' :: rest) number :=
  fun digits => absurd (digits.isDigit.2 '+' List.mem_cons_self) (by decide)

/-- The digits of a number write no other number. -/
theorem eq_of_writes_toString {other : Nat} (writes : Writes (toString number).toList other) :
    other = number := by
  rcases writes with digits | ⟨rest, same, _⟩
  · exact digits.value.symm.trans (digits_toString number).value
  · exact absurd (same ▸ digits_toString number) (not_digits_plus rest number)

/-- The value of digits, computed from the left. -/
theorem foldl_eq (digits : List Char) :
    digits.foldl (fun value c => value * 10 + (c.toNat - '0'.toNat)) 0 =
      Nat.ofDigitChars 10 digits 0 := by
  simp only [Nat.ofDigitChars_eq_foldl, Nat.mul_comm]

end Numeral

namespace SubtreePattern

variable {text : List Char} {position : Nat}

/-- A position is read from a text just where the text writes it. -/
theorem readPosition?_eq_some_iff :
    readPosition? text = some position ↔ position < Nat.pow 2 64 ∧ Numeral.Writes text position := by
  have read (digits : List Char) :
      (if !digits.isEmpty && digits.all Char.isDigit &&
          (digits.foldl (fun value c => value * 10 + (c.toNat - '0'.toNat)) 0 < Nat.pow 2 64 : Bool)
        then some (digits.foldl (fun value c => value * 10 + (c.toNat - '0'.toNat)) 0)
        else none) = some position ↔ position < Nat.pow 2 64 ∧ Numeral.Digits digits position := by
    rw [Numeral.foldl_eq, Numeral.digits_iff, Option.ite_none_right_eq_some]
    simp only [Bool.and_eq_true, Bool.not_eq_true', List.isEmpty_eq_false_iff, List.all_eq_true,
      decide_eq_true_eq, Option.some.injEq]
    constructor
    · rintro ⟨⟨⟨nonempty, digits⟩, small⟩, rfl⟩
      exact ⟨small, nonempty, digits, rfl⟩
    · rintro ⟨small, nonempty, digits, rfl⟩
      exact ⟨⟨⟨nonempty, digits⟩, small⟩, rfl⟩
  unfold readPosition? Numeral.Writes
  dsimp only
  split
  next rest =>
    rw [read]
    simp [Numeral.not_digits_plus]
  next plain =>
    rw [read]
    have unsigned : ¬ ∃ digits, text = '+' :: digits ∧ Numeral.Digits digits position :=
      fun ⟨digits, same, _⟩ => plain digits same
    simp [unsigned]

end SubtreePattern

/-- A step that a piece of a pattern can be written for: a key that is not empty, has no dots
and is no star, or a position below two to the 64. -/
def Step.Plain : Step → Prop
  | .key name => name ≠ "" ∧ '.' ∉ name.toList ∧ name ≠ "*"
  | .index position => position < Nat.pow 2 64

/-- A key that writes a number in another way than numbers are shown, with a plus sign or with
zeros before the digits. -/
def Step.Misread : Step → Prop
  | .key name => ∃ position < Nat.pow 2 64,
      Numeral.Writes name.toList position ∧ toString position ≠ name
  | .index _ => False

theorem Step.Plain.text {step : Step} (plain : step.Plain) :
    step.text.toList ≠ [] ∧ '.' ∉ step.text.toList := by
  cases step with
  | key name => exact ⟨fun empty => plain.1 (String.toList_eq_nil_iff.mp empty), plain.2.1⟩
  | index position =>
    have digits := Numeral.digits_toString position
    exact ⟨digits.isDigit.1, fun dot => absurd (digits.isDigit.2 '.' dot) (by decide)⟩

namespace SubtreePattern

variable {step other : Step} {path : Path}

/-! ### One step -/

theorem readStep_of_writes (small : position < Nat.pow 2 64) (writes : Numeral.Writes text position) :
    readStep text = .index position := by
  have read := readPosition?_eq_some_iff.mpr ⟨small, writes⟩
  have number : text ≠ ['*'] := by
    rintro rfl
    exact absurd read (by simp [readPosition?, Char.isDigit])
  simp [readStep, number, read]

theorem readStep_of_not_writes (number : text ≠ ['*'])
    (none : ∀ position < Nat.pow 2 64, ¬ Numeral.Writes text position) :
    readStep text = .key (String.ofList text) := by
  cases read : readPosition? text with
  | none => simp [readStep, number, read]
  | some position =>
    obtain ⟨small, writes⟩ := readPosition?_eq_some_iff.mp read
    exact absurd writes (none position small)

/-- A step that is not misread is covered by what its text is read as, and so are only steps
that are shown alike. -/
theorem covers_of_not_misread (plain : step.Plain) (clean : ¬ step.Misread) :
    (readStep step.text.toList).covers step = true ∧
      ∀ other, (readStep step.text.toList).covers other = true → other.text = step.text := by
  have number {position : Nat} (small : position < Nat.pow 2 64)
      (writes : Numeral.Writes step.text.toList position) (shown : toString position = step.text) :
      (readStep step.text.toList).covers step = true ∧
        ∀ other, (readStep step.text.toList).covers other = true → other.text = step.text := by
    rw [readStep_of_writes small writes, ← shown]
    constructor
    · cases step with
      | key name => simpa [PatternStep.covers, Step.text] using shown
      | index own => simpa [PatternStep.covers] using Step.eq_of_toString_eq shown
    · intro other covered
      cases other with
      | key name => exact (by simpa [PatternStep.covers] using covered : toString position = name).symm
      | index own =>
        obtain rfl : position = own := by simpa [PatternStep.covers] using covered
        rfl
  cases step with
  | index position => exact number plain (.inl (Numeral.digits_toString position)) rfl
  | key name =>
    by_cases written : ∃ position < Nat.pow 2 64, Numeral.Writes name.toList position
    · obtain ⟨position, small, writes⟩ := written
      refine number small writes (Classical.byContradiction fun different => ?_)
      exact clean ⟨position, small, writes, different⟩
    · have star : name.toList ≠ ['*'] := fun same => plain.2.2 (String.toList_inj.mp same)
      have none : ∀ position < Nat.pow 2 64, ¬ Numeral.Writes name.toList position :=
        fun position small writes => written ⟨position, small, writes⟩
      rw [Step.text, readStep_of_not_writes star none, String.ofList_toList]
      refine ⟨by simp [PatternStep.covers], fun other covered => ?_⟩
      cases other with
      | key own => exact (by simpa [PatternStep.covers] using covered : name = own).symm
      | index own => simp [PatternStep.covers] at covered

/-- A misread step is read as a position that is shown in another way. -/
theorem readStep_of_misread (misread : step.Misread) :
    ∃ position < Nat.pow 2 64, readStep step.text.toList = .index position ∧
      toString position ≠ step.text := by
  cases step with
  | index position => exact misread.elim
  | key name =>
    obtain ⟨position, small, writes, different⟩ := misread
    exact ⟨position, small, readStep_of_writes small writes, different⟩

theorem covers_readStep_iff (plain : step.Plain) :
    (readStep step.text.toList).covers step = true ↔ ¬ step.Misread := by
  refine ⟨fun covered misread => ?_, fun clean => (covers_of_not_misread plain clean).1⟩
  obtain ⟨position, _, read, different⟩ := readStep_of_misread misread
  cases step with
  | index own => exact misread
  | key name =>
    rw [read] at covered
    exact different (by simpa [PatternStep.covers, Step.text] using covered)

/-! ### All steps -/

theorem toList_location (path : Path) :
    path.location.toList = Text.join '.' (path.map fun step => step.text.toList) := by
  have joined (pieces : List (List Char)) :
      Text.join '.' pieces = ['.'].intercalate pieces := by
    induction pieces with
    | nil => rfl
    | cons piece rest ih =>
      cases rest with
      | nil => simp [Text.join]
      | cons other more => simp [Text.join, ih]
  rw [joined, Path.location, String.toList_intercalate, List.map_map]
  rfl

/-- The pieces of a shown path are its steps. -/
theorem pieces_location (plain : ∀ step ∈ path, step.Plain) :
    ((Text.pieces '.' path.location.toList).filter fun piece => !piece.isEmpty) =
      path.map fun step => step.text.toList := by
  rw [toList_location]
  by_cases root : path = []
  · subst root
    rfl
  · rw [Text.pieces_join (by simpa using root)]
    · rw [List.filter_eq_self]
      intro piece member
      obtain ⟨step, among, rfl⟩ := List.mem_map.mp member
      simpa using (plain step among).text.1
    · intro piece member
      obtain ⟨step, among, rfl⟩ := List.mem_map.mp member
      exact (plain step among).text.2

theorem parse_location (plain : ∀ step ∈ path, step.Plain) :
    parse path.location = path.map fun step => readStep step.text.toList := by
  rw [parse, pieces_location plain, List.map_map]
  rfl

/-- A shown path is a pattern for the path if none of its steps is misread. -/
theorem covers_parse_location_iff (plain : ∀ step ∈ path, step.Plain) :
    (parse path.location).covers path = true ↔ ∀ step ∈ path, ¬ step.Misread := by
  rw [parse_location plain, covers_iff_forall₂, List.forall₂_map_left_iff, List.forall₂_same]
  exact forall₂_congr fun step member => covers_readStep_iff (plain step member)

/-- Then it is a pattern only for paths that are shown with the same steps. -/
theorem texts_eq_of_covers (plain : ∀ step ∈ path, step.Plain)
    (clean : ∀ step ∈ path, ¬ step.Misread) {other : Path}
    (covers : (parse path.location).covers other = true) :
    other.map Step.text = path.map Step.text := by
  rw [parse_location plain, covers_iff_forall₂, List.forall₂_map_left_iff] at covers
  induction covers with
  | nil => rfl
  | @cons step own steps others covered _ ih =>
    obtain ⟨here, later⟩ := List.forall_mem_cons.mp plain
    obtain ⟨hereClean, laterClean⟩ := List.forall_mem_cons.mp clean
    rw [List.map_cons, List.map_cons, ih later laterClean,
      (covers_of_not_misread here hereClean).2 own covered]

/-- Plain paths that are shown alike are shown with the same steps. -/
theorem texts_eq_of_location_eq {other : Path} (plain : ∀ step ∈ path, step.Plain)
    (otherPlain : ∀ step ∈ other, step.Plain) (same : other.location = path.location) :
    other.map Step.text = path.map Step.text := by
  have pieces := pieces_location otherPlain
  rw [same, pieces_location plain] at pieces
  have texts := congrArg (List.map String.ofList) pieces
  simpa [List.map_map, Function.comp_def] using texts.symm

/-- The step that a step is read as: the position that its text writes, if there is one. -/
def reread (step : Step) : Step :=
  match readPosition? step.text.toList with
  | some position => .index position
  | none => step

/-- A step is misread if what it is read as is shown in another way. -/
theorem misread_iff : step.Misread ↔ (reread step).text ≠ step.text := by
  unfold reread
  cases read : readPosition? step.text.toList with
  | some position =>
    obtain ⟨small, writes⟩ := readPosition?_eq_some_iff.mp read
    constructor
    · intro misread
      obtain ⟨other, _, same, different⟩ := readStep_of_misread misread
      obtain rfl : position = other := by simpa [readStep_of_writes small writes] using same
      exact different
    · intro different
      cases step with
      | key name => exact ⟨position, small, writes, different⟩
      | index own =>
        rw [Numeral.eq_of_writes_toString writes] at different
        exact different rfl
  | none =>
    refine ⟨fun misread => ?_, fun different => absurd rfl different⟩
    cases step with
    | index position => exact misread.elim
    | key name =>
      obtain ⟨position, small, writes, _⟩ := misread
      rw [Step.text, readPosition?_eq_some_iff.mpr ⟨small, writes⟩] at read
      cases read

instance : DecidablePred Step.Misread := fun _ => decidable_of_iff _ misread_iff.symm

theorem covers_reread (plain : step.Plain) :
    (reread step).Plain ∧ (readStep step.text.toList).covers (reread step) = true := by
  unfold reread
  cases read : readPosition? step.text.toList with
  | some position =>
    obtain ⟨small, writes⟩ := readPosition?_eq_some_iff.mp read
    rw [readStep_of_writes small writes]
    exact ⟨small, by simp [PatternStep.covers]⟩
  | none =>
    have clean : ¬ step.Misread := fun misread =>
      misread_iff.mp misread (by simp only [reread, read])
    exact ⟨plain, (covers_of_not_misread plain clean).1⟩

/-- If a step is misread, the shown path is a pattern for another path, which is shown in
another way. -/
theorem exists_covers_of_misread (plain : ∀ step ∈ path, step.Plain)
    (misread : ∃ step ∈ path, step.Misread) :
    ∃ other : Path, (∀ step ∈ other, step.Plain) ∧ (parse path.location).covers other = true ∧
      other.location ≠ path.location := by
  have otherPlain : ∀ step ∈ path.map reread, step.Plain := by
    intro step member
    obtain ⟨own, among, rfl⟩ := List.mem_map.mp member
    exact (covers_reread (plain own among)).1
  refine ⟨path.map reread, otherPlain, ?_, fun same => ?_⟩
  · rw [parse_location plain, covers_iff_forall₂, List.forall₂_map_left_iff,
      List.forall₂_map_right_iff, List.forall₂_same]
    exact fun step member => (covers_reread (plain step member)).2
  · obtain ⟨step, member, misread⟩ := misread
    have texts := texts_eq_of_location_eq plain otherPlain same
    rw [List.map_map, List.map_inj_left] at texts
    exact misread_iff.mp misread (texts step member)

end SubtreePattern

/-! ### Problems at locations -/

namespace Tree

variable {listed before after : List Site} {names problems : List String} {site : Site}
  {error : NameError}

/-- Placeholders have one account. -/
theorem Accounts.unique {names' problems' : List String} (one : Accounts listed names problems)
    (other : Accounts listed names' problems') : names = names' ∧ problems = problems' := by
  induction one generalizing names' problems' with
  | nil =>
    cases other
    exact ⟨rfl, rfl⟩
  | name read _ ih =>
    cases other with
    | name readToo rest =>
      obtain ⟨rfl, rfl⟩ := ih rest
      exact ⟨by rw [Except.ok.inj (read.symm.trans readToo)], rfl⟩
    | problem malformed _ => cases read.symm.trans malformed
  | problem malformed _ ih =>
    cases other with
    | name read _ => cases read.symm.trans malformed
    | problem malformedToo rest =>
      obtain ⟨rfl, rfl⟩ := ih rest
      exact ⟨rfl, by rw [Except.error.inj (malformed.symm.trans malformedToo)]⟩

/-- Without a placeholder that has a problem, the account lacks just this problem. -/
theorem Accounts.remove (malformed : Placeholder.name site.placeholder = .error error)
    (accounts : Accounts (before ++ site :: after) names problems) :
    ∃ front rear, problems = front ++ s!"{site.path.location}: {error.message}" :: rear ∧
      Accounts (before ++ after) names (front ++ rear) := by
  induction before generalizing names problems with
  | nil =>
    cases accounts with
    | name read _ => cases read.symm.trans malformed
    | problem malformedToo rest =>
      rw [Except.error.inj (malformedToo.symm.trans malformed)]
      exact ⟨[], _, rfl, rest⟩
  | cons first before ih =>
    cases accounts with
    | name read rest =>
      obtain ⟨front, rear, same, accounts⟩ := ih rest
      exact ⟨front, rear, same, .name read accounts⟩
    | problem own rest =>
      obtain ⟨front, rear, rfl, accounts⟩ := ih rest
      exact ⟨_ :: front, rear, rfl, .problem own accounts⟩

theorem Accounts.mem (malformed : Placeholder.name site.placeholder = .error error)
    (accounts : Accounts listed names problems) (member : site ∈ listed) :
    s!"{site.path.location}: {error.message}" ∈ problems := by
  obtain ⟨before, after, rfl⟩ := List.append_of_mem member
  obtain ⟨front, rear, rfl, _⟩ := accounts.remove malformed
  simp

/-- The problem of a check for absolute names that some names are relative. -/
def relativeProblem (tree : Json) (ignored : List SubtreePattern) (mustBeAbsolute : Bool) :
    List String :=
  if mustBeAbsolute = true ∧ relativeNames tree ignored ≠ [] then
    [Name.relativeNamesMessage (relativeNames tree ignored)]
  else []

variable {tree : Json} {ignored : List SubtreePattern} {pattern : SubtreePattern} {path : Path}

theorem mem_sites_iff : site ∈ sites tree ignored ↔
    (site.path, site.placeholder) ∈ strings ignored [] tree ∧
      Placeholder.isFull site.placeholder = true := by
  simp only [sites, List.mem_map, List.mem_filter]
  constructor
  · rintro ⟨string, found, rfl⟩
    exact found
  · intro found
    exact ⟨_, found, rfl⟩

/-- Where the strings of one path are taken out, so are the placeholders. -/
theorem sites_eq_filter {more : List SubtreePattern}
    (taken : strings more [] tree =
      (strings ignored [] tree).filter fun string => string.1 ≠ path) :
    sites tree more = (sites tree ignored).filter fun site => site.path ≠ path := by
  rw [sites, sites, taken, List.filter_map, List.filter_filter, List.filter_filter]
  simp only [Function.comp_def, Bool.and_comm]

/-- A placeholder stands once among those of a tree, and no other in its place. -/
theorem exists_sites_eq (distinct : tree.DistinctKeys) (member : site ∈ sites tree ignored) :
    ∃ before after, sites tree ignored = before ++ site :: after ∧
      ((sites tree ignored).filter fun other => other.path ≠ site.path) = before ++ after := by
  have once : ((sites tree ignored).map Site.path).Nodup := by
    rw [sites, List.map_map]
    exact (nodup_strings tree [] distinct).sublist (List.filter_sublist.map _)
  obtain ⟨before, after, split⟩ := List.append_of_mem member
  refine ⟨before, after, split, ?_⟩
  rw [split, List.map_append, List.map_cons, List.nodup_middle, List.nodup_cons] at once
  have others : ∀ other ∈ before ++ after, other.path ≠ site.path := by
    intro other among same
    exact once.1 (by rw [← List.map_append, ← same]; exact List.mem_map_of_mem among)
  rw [List.forall_mem_append] at others
  rw [split, List.filter_append, List.filter_cons_of_neg (by simp),
    List.filter_eq_self.mpr (by simpa using others.1),
    List.filter_eq_self.mpr (by simpa using others.2)]

/-- A check that takes out the strings of one path lacks the problem at this path. -/
theorem check_of_taken {more : List SubtreePattern} (mustBeAbsolute : Bool)
    (distinct : tree.DistinctKeys) (member : site ∈ sites tree ignored)
    (malformed : Placeholder.name site.placeholder = .error error)
    (taken : strings more [] tree =
      (strings ignored [] tree).filter fun string => string.1 ≠ site.path) :
    ∃ names front rear,
      check tree ignored mustBeAbsolute =
        ⟨names, front ++ s!"{site.path.location}: {error.message}" :: rear ++
          relativeProblem tree ignored mustBeAbsolute⟩ ∧
      check tree more mustBeAbsolute =
        ⟨names, front ++ rear ++ relativeProblem tree more mustBeAbsolute⟩ := by
  obtain ⟨before, after, split, rest⟩ := exists_sites_eq distinct member
  obtain ⟨names, problems, accounts, checked⟩ := exists_accounts_check tree ignored mustBeAbsolute
  obtain ⟨names', problems', accounts', checked'⟩ := exists_accounts_check tree more mustBeAbsolute
  rw [split] at accounts
  obtain ⟨front, rear, rfl, fewer⟩ := accounts.remove malformed
  rw [sites_eq_filter taken, rest] at accounts'
  obtain ⟨rfl, rfl⟩ := accounts'.unique fewer
  exact ⟨_, front, rear, checked, checked'⟩

/-- A problem is found as long as its placeholder is not ignored. -/
theorem mem_problems_of_mem_sites (mustBeAbsolute : Bool) (member : site ∈ sites tree ignored)
    (malformed : Placeholder.name site.placeholder = .error error) :
    s!"{site.path.location}: {error.message}" ∈ (check tree ignored mustBeAbsolute).problems := by
  obtain ⟨names, problems, accounts, checked⟩ := exists_accounts_check tree ignored mustBeAbsolute
  rw [checked]
  exact List.mem_append_left _ (accounts.mem malformed member)

/-- A pattern of the length of a placeholder's path that does not describe this path leaves the
placeholder. -/
theorem mem_sites_cons (member : site ∈ sites tree ignored)
    (long : pattern.length = site.path.length) (open_ : pattern.covers site.path = false) :
    site ∈ sites tree (pattern :: ignored) := by
  obtain ⟨stands, full⟩ := mem_sites_iff.mp member
  refine mem_sites_iff.mpr ⟨?_, full⟩
  rw [strings_cons, List.mem_filter]
  simp [stands, SubtreePattern.meets, take_of_length_eq (List.prefix_refl site.path) long, open_]

end Tree

namespace SubtreePattern

variable {path : Path}

/-- A shown path is a pattern for the path, and for no path that is shown in another way, just
if none of its keys writes a number with a plus sign or with zeros before the digits. Then the
location of a problem, given as a pattern, takes out the strings at this location and no others,
and the check lacks this problem and no other that has a location. Otherwise the check still
finds it. -/
theorem covers_location_iff (plain : ∀ step ∈ path, step.Plain) :
    ((parse path.location).covers path = true ↔ ∀ step ∈ path, ¬ step.Misread) ∧
    ((∀ other : Path, (∀ step ∈ other, step.Plain) →
        (parse path.location).covers other = true → other.location = path.location) ↔
      ∀ step ∈ path, ¬ step.Misread) ∧
    ∀ (tree : Json) (ignored : List SubtreePattern) (mustBeAbsolute : Bool) (site : Site)
      (error : NameError), tree.DistinctKeys → site ∈ Tree.sites tree ignored →
      site.path = path → Placeholder.name site.placeholder = .error error →
      ((∀ step ∈ path, ¬ step.Misread) →
        Tree.strings (parse path.location :: ignored) [] tree =
            (Tree.strings ignored [] tree).filter (fun string => string.1 ≠ path) ∧
          ∃ names front rear,
            Tree.check tree ignored mustBeAbsolute =
              ⟨names, front ++ s!"{path.location}: {error.message}" :: rear ++
                Tree.relativeProblem tree ignored mustBeAbsolute⟩ ∧
            Tree.check tree (parse path.location :: ignored) mustBeAbsolute =
              ⟨names, front ++ rear ++
                Tree.relativeProblem tree (parse path.location :: ignored) mustBeAbsolute⟩) ∧
      ((∃ step ∈ path, step.Misread) →
        s!"{path.location}: {error.message}" ∈
          (Tree.check tree (parse path.location :: ignored) mustBeAbsolute).problems) := by
  refine ⟨covers_parse_location_iff plain, ⟨fun alone => ?_, fun clean other _ covers => ?_⟩, ?_⟩
  · intro step member misread
    obtain ⟨other, otherPlain, covers, different⟩ :=
      exists_covers_of_misread plain ⟨step, member, misread⟩
    exact different (alone other otherPlain covers)
  · rw [Path.location, texts_eq_of_covers plain clean covers, Path.location]
  · rintro tree ignored mustBeAbsolute site error distinct member rfl malformed
    constructor
    · intro clean
      have taken := Tree.strings_cons_of_covers distinct (Tree.mem_sites_iff.mp member).1
        ((covers_parse_location_iff plain).mpr clean) fun _ => texts_eq_of_covers plain clean
      exact ⟨taken, Tree.check_of_taken mustBeAbsolute distinct member malformed taken⟩
    · intro ⟨step, among, misread⟩
      have long : (parse site.path.location).length = site.path.length := by
        rw [parse_location plain, List.length_map]
      have open_ : (parse site.path.location).covers site.path = false := by
        rw [← Bool.not_eq_true, covers_parse_location_iff plain]
        exact fun clean => clean step among misread
      exact Tree.mem_problems_of_mem_sites mustBeAbsolute
        (Tree.mem_sites_cons member long open_) malformed

/-- A key of digits and a position in one location. -/
theorem covers_location_iff_nested :
    let path : Path := [.key "jobs", .index 1, .key "0"]
    let tree : Json := .obj [("jobs", .arr [.str "((a b))", .obj [("0", .str "((c d))")]])]
    let error : NameError := .badCharacter "c d"
    (∀ step ∈ path, step.Plain) ∧ (∀ step ∈ path, ¬ step.Misread) ∧ tree.DistinctKeys ∧
      ⟨path, "((c d))"⟩ ∈ Tree.sites tree [] ∧ Placeholder.name "((c d))" = .error error ∧
      (parse path.location).covers path = true ∧
      ∃ names front rear,
        Tree.check tree [] false =
          ⟨names, front ++ s!"{path.location}: {error.message}" :: rear ++ []⟩ ∧
        Tree.check tree [parse path.location] false = ⟨names, front ++ rear ++ []⟩ := by
  intro path tree error
  have plain : ∀ step ∈ path, step.Plain := by simp [path, Step.Plain]
  have clean : ∀ step ∈ path, ¬ step.Misread := by decide +kernel
  have distinct : tree.DistinctKeys := by
    simp [tree, Json.DistinctKeys, Json.DistinctKeysInFields, Json.DistinctKeysInItems, Keyed.keys]
  have stands : ⟨path, "((c d))"⟩ ∈ Tree.sites tree [] := by decide +kernel
  have malformed : Placeholder.name "((c d))" = .error error := by decide +kernel
  obtain ⟨covers, _, ignores⟩ := covers_location_iff plain
  exact ⟨plain, clean, distinct, stands, malformed, covers.mpr clean,
    ((ignores tree [] false _ _ distinct stands rfl malformed).1 clean).2⟩

/-- The location of the problem at the key `+1` is a pattern for the key `1`, so it takes out
the problem there and leaves its own. -/
theorem covers_location_plus :
    (∀ step ∈ [Step.key "+1"], step.Plain) ∧
      (parse (Path.location [.key "+1"])).covers [.key "+1"] = false ∧
      (parse (Path.location [.key "+1"])).covers [.key "1"] = true ∧
      Path.location [.key "1"] ≠ Path.location [.key "+1"] ∧
      Tree.check (.obj [("+1", .str "((a b))"), ("1", .str "((c d))")])
          [parse (Path.location [.key "+1"])] false =
        ⟨[], ["+1: " ++ (NameError.badCharacter "a b").message]⟩ := by
  refine ⟨by simp [Step.Plain], ?_⟩
  decide +kernel

end SubtreePattern

end ManifestVariables
