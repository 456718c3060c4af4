import ManifestVariables.Proofs.Name.Grammar

/-!
# How names are spelled

A name is spelled from words: words with a slash between neighbours, a slash perhaps before
the first of them, and behind the last of them further words with a dot before each
(`Name.Spelling`). The rules that a name is checked by say what its separators must not do.
Separators that neither stand at the ends of a text nor side by side are separators of words
(`Text.pieces_nonempty_iff`), so the rules admit exactly the texts that are spelled like this
(`Name.valid_iff_spelled`), and a placeholder gives a name exactly if one stands between its
parentheses (`Placeholder.grammar_recognised`).
-/

namespace ManifestVariables

namespace Text

variable {separator : Char} {front : List Char}

theorem pieces_cons_of_ne {c : Char} (different : c ≠ separator) (rest : List Char) :
    ∃ piece others, pieces separator rest = piece :: others ∧
      pieces separator (c :: rest) = (c :: piece) :: others := by
  obtain ⟨piece, others, split⟩ := List.exists_cons_of_ne_nil (pieces_ne_nil separator rest)
  exact ⟨piece, others, split, by simp [pieces, different, split]⟩

theorem head?_pieces_eq_nil_iff (separator : Char) (text : List Char) :
    (pieces separator text).head? = some [] ↔ text = [] ∨ text.head? = some separator := by
  cases text with
  | nil => simp [pieces]
  | cons c rest =>
    by_cases same : c = separator
    · simp [pieces, same]
    · obtain ⟨piece, others, -, split⟩ := pieces_cons_of_ne same rest
      simp [split, same]

theorem double_cons_iff {c : Char} :
    [separator, separator] <:+: c :: rest ↔
      c = separator ∧ rest.head? = some separator ∨ [separator, separator] <:+: rest := by
  rw [List.infix_cons_iff]
  cases rest with
  | nil => simp
  | cons other rest => simp [eq_comm]

theorem double_append_iff (free : separator ∉ front) :
    [separator, separator] <:+: front ++ rest ↔ [separator, separator] <:+: rest := by
  induction front with
  | nil => rfl
  | cons c front ih =>
    have different : c ≠ separator := Ne.symm (List.ne_of_not_mem_cons free)
    rw [List.cons_append, double_cons_iff, ih (List.not_mem_of_not_mem_cons free)]
    simp [different]

/-- No piece behind the first is empty exactly if no separator ends the text or stands before
another. -/
theorem tail_pieces_nonempty_iff (separator : Char) (text : List Char) :
    (∀ piece ∈ (pieces separator text).tail, piece ≠ []) ↔
      text.getLast? ≠ some separator ∧ ¬ [separator, separator] <:+: text := by
  induction text with
  | nil => simp [pieces]
  | cons c rest ih =>
    by_cases same : c = separator
    · subst same
      -- The piece behind this separator is the first piece of the rest.
      obtain ⟨piece, others, split⟩ := List.exists_cons_of_ne_nil (pieces_ne_nil c rest)
      have first := head?_pieces_eq_nil_iff c rest
      simp only [split, List.tail_cons, List.head?_cons, Option.some.injEq] at ih first
      rw [pieces, if_pos rfl, List.tail_cons, split, List.forall_mem_cons, ih, double_cons_iff,
        ne_eq, first]
      cases rest with
      | nil => simp
      | cons other rest =>
        rw [List.getLast?_cons_cons]
        simp only [List.cons_ne_nil, false_or, true_and, not_or]
        exact and_left_comm
    · obtain ⟨piece, others, split, whole⟩ := pieces_cons_of_ne same rest
      rw [split, List.tail_cons] at ih
      rw [whole, List.tail_cons, ih, double_cons_iff]
      cases rest with
      | nil => simp [same]
      | cons other rest => simp [same]

/-- The pieces of a text are nonempty exactly if no separator stands at an end of it or beside
another. -/
theorem pieces_nonempty_iff (separator : Char) (text : List Char) :
    (∀ piece ∈ pieces separator text, piece ≠ []) ↔
      text ≠ [] ∧ text.head? ≠ some separator ∧ text.getLast? ≠ some separator ∧
        ¬ [separator, separator] <:+: text := by
  obtain ⟨piece, others, split⟩ := List.exists_cons_of_ne_nil (pieces_ne_nil separator text)
  have first := head?_pieces_eq_nil_iff separator text
  have later := tail_pieces_nonempty_iff separator text
  simp only [split, List.tail_cons, List.head?_cons, Option.some.injEq] at first later
  rw [split, List.forall_mem_cons, later, ne_eq, first, not_or, and_assoc]

/-- Texts without separators are the pieces of what they are joined to. -/
theorem pieces_join {words : List (List Char)} (nonempty : words ≠ [])
    (free : ∀ word ∈ words, separator ∉ word) :
    pieces separator (join separator words) = words := by
  induction words with
  | nil => exact absurd rfl nonempty
  | cons word more ih =>
    obtain ⟨here, later⟩ := List.forall_mem_cons.mp free
    cases more with
    | nil => exact pieces_of_not_mem here
    | cons other more =>
      rw [join, pieces_append, pieces_of_not_mem here, ih (List.cons_ne_nil _ _) later]
      · rfl
      · simp

theorem join_cons_cons (separator : Char) (word other : List Char) (more : List (List Char)) :
    join separator (word :: other :: more) = word ++ separator :: join separator (other :: more) :=
  rfl

theorem join_cons (separator : Char) (word : List Char) (more : List (List Char)) :
    join separator (word :: more) = word ++ more.flatMap (separator :: ·) := by
  induction more generalizing word with
  | nil => simp [join]
  | cons other more ih => simp [join, ih]

theorem mem_join {c : Char} {words : List (List Char)} (member : c ∈ join separator words) :
    c = separator ∨ ∃ word ∈ words, c ∈ word := by
  cases words with
  | nil => cases member
  | cons word more =>
    simp only [join_cons, List.mem_append, List.mem_flatMap, List.mem_cons] at member
    grind

end Text

namespace Name

variable {name : String} {text front rest : List Char}

/-- A word is made of ASCII letters and digits, underscores and dashes. -/
structure IsWord (text : List Char) : Prop where
  nonempty : text ≠ []
  chars : ∀ c ∈ text,
    'A' ≤ c ∧ c ≤ 'Z' ∨ 'a' ≤ c ∧ c ≤ 'z' ∨ '0' ≤ c ∧ c ≤ '9' ∨ c = '_' ∨ c = '-'

/-- The parts that a name is spelled from. -/
structure Spelling where
  /-- Whether a slash stands before the first word. -/
  rooted : Bool
  words : List (List Char)
  keys : List (List Char)
  words_ne_nil : words ≠ []
  words_isWord : ∀ word ∈ words, IsWord word
  keys_isWord : ∀ key ∈ keys, IsWord key

/-- The words with a slash between neighbours, and the keys with a dot before each. -/
def Spelling.chars (spelling : Spelling) : List Char :=
  (if spelling.rooted then ['/'] else []) ++ Text.join '/' spelling.words ++
    spelling.keys.flatMap ('.' :: ·)

theorem isWordChar_iff {c : Char} :
    isWordChar c = true ↔
      'A' ≤ c ∧ c ≤ 'Z' ∨ 'a' ≤ c ∧ c ≤ 'z' ∨ '0' ≤ c ∧ c ≤ '9' ∨ c = '_' ∨ c = '-' := by
  have within (low high : Char) :
      (decide (low.val ≤ c.val) && decide (c.val ≤ high.val)) = true ↔ low ≤ c ∧ c ≤ high := by
    simp [Char.le_def]
  have upper : c.isUpper = true ↔ 'A' ≤ c ∧ c ≤ 'Z' := decide_eq_true_iff
  have lower : c.isLower = true ↔ 'a' ≤ c ∧ c ≤ 'z' := within 'a' 'z'
  have digit : c.isDigit = true ↔ '0' ≤ c ∧ c ≤ '9' := within '0' '9'
  have whole : isWordChar c = (c.isUpper || c.isLower || c.isDigit || c = '_' || c = '-') := rfl
  simp only [whole, Bool.or_eq_true, upper, lower, digit, decide_eq_true_eq, or_assoc]

theorem isWord_iff : IsWord text ↔ text ≠ [] ∧ ∀ c ∈ text, isWordChar c = true := by
  simp only [isWordChar_iff]
  exact ⟨fun word => ⟨word.nonempty, word.chars⟩, fun ⟨nonempty, chars⟩ => ⟨nonempty, chars⟩⟩

instance : DecidablePred IsWord := fun text =>
  decidable_of_iff (text ≠ [] ∧ text.all isWordChar = true) (by rw [List.all_eq_true, isWord_iff])

theorem not_mem_of_isWordChar (word : ∀ c ∈ text, isWordChar c = true) :
    '/' ∉ text ∧ '.' ∉ text :=
  ⟨fun slash => absurd (word _ slash) (by decide), fun dot => absurd (word _ dot) (by decide)⟩

theorem isNameChar_iff {c : Char} :
    isNameChar c = true ↔ isWordChar c = true ∨ c = '/' ∨ c = '.' := by
  simp [isNameChar, or_assoc]

/-- A text without slashes is a valid name exactly if the pieces between its dots are words. -/
theorem valid_iff_of_not_mem (free : '/' ∉ text) :
    Valid text ↔ ∀ piece ∈ Text.pieces '.' text, IsWord piece := by
  have separated := Text.pieces_nonempty_iff '.' text
  constructor
  · intro valid piece member
    have outer := valid.pieces text (by simp [Text.pieces_of_not_mem free])
    simp only [hasOuterDot, Bool.or_eq_false_iff, decide_eq_false_iff_not] at outer
    refine isWord_iff.mpr ⟨?_, fun c inside => ?_⟩
    · exact separated.mpr ⟨valid.nonempty, outer.1, outer.2, valid.dots⟩ piece member
    · have within := Text.subset_of_mem_pieces member inside
      rcases isNameChar_iff.mp (valid.chars c within) with word | rfl | rfl
      · exact word
      · exact absurd within free
      · exact absurd inside (Text.not_mem_of_mem_pieces member)
  · intro words
    obtain ⟨nonempty, first, last, dots⟩ :=
      separated.mp fun piece member => (words piece member).nonempty
    refine ⟨nonempty, fun closed => free (List.mem_of_getLast? closed), ?_, ?_, ?_, dots, ?_⟩
    · exact fun double => free (double.subset List.mem_cons_self)
    · simp [Text.splitLast_of_not_mem free]
    · simp [Text.pieces_of_not_mem free, hasOuterDot, first, last]
    · intro c member
      rw [← Text.join_pieces '.' text] at member
      rcases Text.mem_join member with rfl | ⟨piece, among, inside⟩
      · decide
      · exact isNameChar_iff.mpr (.inl ((isWord_iff.mp (words piece among)).2 c inside))

/-- What stands before a slash of a valid name has no dots and no characters that words do not
have, and what follows the slash is a valid name that is relative. -/
theorem valid_append_iff (word : ∀ c ∈ front, isWordChar c = true) :
    Valid (front ++ '/' :: rest) ↔ Valid rest ∧ rest.head? ≠ some '/' := by
  obtain ⟨slashless, dotless⟩ := not_mem_of_isWordChar word
  have single : ['/', '/'] <:+: front ++ '/' :: rest ↔
      rest.head? = some '/' ∨ ['/', '/'] <:+: rest := by
    rw [Text.double_append_iff slashless, Text.double_cons_iff]
    simp
  have dots : ['.', '.'] <:+: front ++ '/' :: rest ↔ ['.', '.'] <:+: rest := by
    rw [Text.double_append_iff dotless, Text.double_cons_iff]
    simp
  have last : (front ++ '/' :: rest).getLast? = if rest = [] then some '/' else rest.getLast? := by
    rw [List.getLast?_append_of_ne_nil _ (List.cons_ne_nil _ _)]
    cases rest with
    | nil => rfl
    | cons c rest => simp
  have directory : '.' ∈ (Text.splitLast '/' (front ++ '/' :: rest)).1 ↔
      '.' ∈ (Text.splitLast '/' rest).1 := by
    simp [Text.fst_splitLast_append_cons, dotless]
  have pieces : Text.pieces '/' (front ++ '/' :: rest) = front :: Text.pieces '/' rest := by
    rw [Text.pieces_append, Text.pieces_of_not_mem slashless]
    rfl
  constructor
  · intro valid
    have nonempty : rest ≠ [] := by
      rintro rfl
      exact valid.closed (last.trans (if_pos rfl))
    have relative : rest.head? ≠ some '/' := fun first => valid.single (single.mpr (.inl first))
    refine ⟨⟨nonempty, ?_, ?_, ?_, ?_, ?_, ?_⟩, relative⟩
    · simpa [last, nonempty] using valid.closed
    · exact fun double => valid.single (single.mpr (.inr double))
    · exact fun dot => valid.directory (directory.mpr dot)
    · exact fun piece member => valid.pieces piece (pieces ▸ List.mem_cons_of_mem _ member)
    · exact fun double => valid.dots (dots.mpr double)
    · exact fun c member => valid.chars c (by simp [member])
  · rintro ⟨valid, relative⟩
    refine ⟨by simp, ?_, ?_, ?_, ?_, ?_, ?_⟩
    · simpa [last, valid.nonempty] using valid.closed
    · simpa [single, relative] using valid.single
    · exact fun dot => valid.directory (directory.mp dot)
    · rw [pieces]
      exact List.forall_mem_cons.mpr ⟨hasOuterDot_eq_false dotless, valid.pieces⟩
    · exact fun double => valid.dots (dots.mp double)
    · simp only [List.forall_mem_append, List.forall_mem_cons]
      exact ⟨fun c member => isNameChar_iff.mpr (.inl (word c member)), by decide, valid.chars⟩

/-- A valid relative name is spelled from the pieces between its slashes, the last of which has
the keys behind it. -/
theorem exists_words_of_valid {pieces : List (List Char)} (nonempty : pieces ≠ [])
    (free : ∀ piece ∈ pieces, '/' ∉ piece) (valid : Valid (Text.join '/' pieces))
    (relative : (Text.join '/' pieces).head? ≠ some '/') :
    ∃ words keys : List (List Char), words ≠ [] ∧ (∀ word ∈ words, IsWord word) ∧
      (∀ key ∈ keys, IsWord key) ∧
      Text.join '/' pieces = Text.join '/' words ++ keys.flatMap ('.' :: ·) := by
  induction pieces with
  | nil => exact absurd rfl nonempty
  | cons piece more ih =>
    obtain ⟨slashless, later⟩ := List.forall_mem_cons.mp free
    cases more with
    | nil =>
      obtain ⟨word, keys, split⟩ := List.exists_cons_of_ne_nil (Text.pieces_ne_nil '.' piece)
      have words := (valid_iff_of_not_mem slashless).mp valid
      rw [split, List.forall_mem_cons] at words
      refine ⟨[word], keys, List.cons_ne_nil _ _, by simpa using words.1, words.2, ?_⟩
      calc piece = Text.join '.' (word :: keys) := by rw [← split, Text.join_pieces]
        _ = word ++ keys.flatMap ('.' :: ·) := Text.join_cons '.' word keys
    | cons other more =>
      rw [Text.join_cons_cons] at valid relative
      have chars : ∀ c ∈ piece, isWordChar c = true := by
        intro c member
        rcases isNameChar_iff.mp (valid.chars c (List.mem_append_left _ member)) with
          word | rfl | rfl
        · exact word
        · exact absurd member slashless
        · refine absurd ?_ valid.directory
          rw [Text.fst_splitLast_append_cons]
          exact List.mem_append_left _ member
      have filled : piece ≠ [] := by
        rintro rfl
        exact relative rfl
      obtain ⟨rest, first⟩ := (valid_append_iff chars).mp valid
      obtain ⟨words, keys, found, areWords, areKeys, spelled⟩ :=
        ih (List.cons_ne_nil _ _) later rest first
      obtain ⟨word, others, rfl⟩ := List.exists_cons_of_ne_nil found
      refine ⟨piece :: word :: others, keys, List.cons_ne_nil _ _, ?_, areKeys, ?_⟩
      · exact List.forall_mem_cons.mpr ⟨isWord_iff.mpr ⟨filled, chars⟩, areWords⟩
      · simp only [Text.join_cons_cons, spelled, List.append_assoc, List.cons_append]

/-- What is spelled from words and keys without a slash in front is a valid name. -/
theorem valid_of_words {words keys : List (List Char)} (nonempty : words ≠ [])
    (areWords : ∀ word ∈ words, IsWord word) (areKeys : ∀ key ∈ keys, IsWord key) :
    Valid (Text.join '/' words ++ keys.flatMap ('.' :: ·)) ∧
      (Text.join '/' words ++ keys.flatMap ('.' :: ·)).head? ≠ some '/' := by
  induction words with
  | nil => exact absurd rfl nonempty
  | cons word more ih =>
    obtain ⟨here, later⟩ := List.forall_mem_cons.mp areWords
    obtain ⟨filled, chars⟩ := isWord_iff.mp here
    have relative (rest : List Char) : (word ++ rest).head? ≠ some '/' := by
      rw [List.head?_append_of_ne_nil _ filled]
      exact fun first => (not_mem_of_isWordChar chars).1 (List.mem_of_head? first)
    cases more with
    | nil =>
      have each : ∀ piece ∈ word :: keys, IsWord piece :=
        List.forall_mem_cons.mpr ⟨here, areKeys⟩
      have free (separator : Char) (odd : isWordChar separator = false) :
          ∀ piece ∈ word :: keys, separator ∉ piece := by
        intro piece member inside
        exact absurd ((isWord_iff.mp (each piece member)).2 _ inside) (by simp [odd])
      refine ⟨?_, relative _⟩
      rw [Text.join, ← Text.join_cons]
      refine (valid_iff_of_not_mem fun slash => ?_).mpr ?_
      · rcases Text.mem_join slash with same | ⟨piece, member, inside⟩
        · exact absurd same (by decide)
        · exact free '/' (by decide) piece member inside
      · rw [Text.pieces_join (List.cons_ne_nil _ _) (free '.' (by decide))]
        exact each
    | cons other more =>
      rw [Text.join_cons_cons, List.append_assoc, List.cons_append]
      exact ⟨(valid_append_iff chars).mpr (ih (List.cons_ne_nil _ _) later), relative _⟩

/-- The valid names are the spelled ones. -/
theorem valid_iff_spelled : Valid text ↔ ∃ spelling : Spelling, text = spelling.chars := by
  constructor
  · intro valid
    -- A slash in front is a separator behind an empty front.
    have rooted : ∃ (slash : Bool) (rest : List Char),
        text = (if slash then ['/'] else []) ++ rest ∧ Valid rest ∧ rest.head? ≠ some '/' := by
      by_cases first : text.head? = some '/'
      · obtain ⟨rest, rfl⟩ := List.head?_eq_some_iff.mp first
        exact ⟨true, rest, rfl, (valid_append_iff (List.forall_mem_nil _)).mp valid⟩
      · exact ⟨false, text, rfl, valid, first⟩
    obtain ⟨slash, rest, rfl, relative⟩ := rooted
    rw [← Text.join_pieces '/' rest] at relative
    obtain ⟨words, keys, found, areWords, areKeys, spelled⟩ :=
      exists_words_of_valid (Text.pieces_ne_nil '/' rest)
        (fun piece member => Text.not_mem_of_mem_pieces member) relative.1 relative.2
    rw [Text.join_pieces] at spelled
    exact ⟨⟨slash, words, keys, found, areWords, areKeys⟩, by simp [Spelling.chars, spelled]⟩
  · rintro ⟨⟨slash, words, keys, nonempty, areWords, areKeys⟩, rfl⟩
    have relative := valid_of_words nonempty areWords areKeys
    cases slash with
    | false => simpa [Spelling.chars] using relative.1
    | true =>
      have whole := (valid_append_iff (List.forall_mem_nil _)).mpr relative
      simpa [Spelling.chars] using whole

end Name

namespace Placeholder

variable {text name : String}

/-- The check of a name finds fault with the name, not with what stands around it. -/
theorem validate_ne_notAPlaceholder (name other : String) :
    Name.validate name ≠ .error (.notAPlaceholder other) := by
  unfold Name.validate
  dsimp only
  repeat' split
  all_goals simp

theorem name_ne_notAPlaceholder (full : isFull text = true) (other : String) :
    Placeholder.name text ≠ .error (.notAPlaceholder other) := by
  obtain ⟨body, whole, -⟩ := isFull_iff.mp full
  have checked := validate_ne_notAPlaceholder (String.ofList (stripBang body)) other
  rw [Placeholder.name, whole, body?_wrap]
  dsimp only
  cases found : Name.validate (String.ofList (stripBang body)) with
  | error failure => simpa [Except.map, found] using checked
  | ok => simp [Except.map]

theorem toList_eq_wrap_iff : text.toList = wrap name.toList ↔ text = "((" ++ name ++ "))" := by
  rw [← String.toList_inj]
  simp [wrap]

theorem toList_eq_wrap_bang_iff :
    text.toList = wrap ('!' :: name.toList) ↔ text = "((!" ++ name ++ "))" := by
  rw [← String.toList_inj]
  simp [wrap]

/-- The check accepts exactly the names that are spelled from words. A name is read from a
placeholder exactly if it is one of these and stands between the parentheses, perhaps behind an
exclamation mark; each such text is one full placeholder, and what is wrong with a full
placeholder is its name. -/
theorem grammar_recognised (name text : String) :
    (Name.validate name = .ok () ↔ ∃ spelling : Name.Spelling, name.toList = spelling.chars) ∧
    (Placeholder.name text = .ok name ↔
      (∃ spelling : Name.Spelling, name.toList = spelling.chars) ∧
        (text = "((" ++ name ++ "))" ∨ text = "((!" ++ name ++ "))")) ∧
    (Placeholder.name text = .ok name → isFull text = true) ∧
    (isFull text = true → ∀ other, Placeholder.name text ≠ .error (.notAPlaceholder other)) := by
  refine ⟨?_, ?_, isFull_of_name_eq_ok, name_ne_notAPlaceholder⟩
  · rw [Name.validate_eq_ok_iff, Name.valid_iff_spelled]
  · rw [name_eq_ok_iff_valid, Name.valid_iff_spelled, toList_eq_wrap_iff, toList_eq_wrap_bang_iff]

/-- A rooted name of two words with a key. -/
def rootedSpelling : Name.Spelling where
  rooted := true
  words := ["d1".toList, "dep-2".toList, "Cert_1".toList]
  keys := ["ca".toList, "0".toList]
  words_ne_nil := by decide
  words_isWord := by decide
  keys_isWord := by decide

theorem grammar_recognised_rooted :
    Placeholder.name "((!/d1/dep-2/Cert_1.ca.0))" = .ok "/d1/dep-2/Cert_1.ca.0" ∧
      isFull "((!/d1/dep-2/Cert_1.ca.0))" = true ∧
      isFull "((a b))" = true ∧
      Placeholder.name "((a b))" ≠ .error (.notAPlaceholder "((a b))") := by
  have read : Placeholder.name "((!/d1/dep-2/Cert_1.ca.0))" = .ok "/d1/dep-2/Cert_1.ca.0" :=
    (grammar_recognised "/d1/dep-2/Cert_1.ca.0" "((!/d1/dep-2/Cert_1.ca.0))").2.1.mpr
      ⟨⟨rootedSpelling, by decide⟩, .inr rfl⟩
  have malformed : isFull "((a b))" = true := by decide
  refine ⟨read, (grammar_recognised _ _).2.2.1 read, malformed, ?_⟩
  exact (grammar_recognised "" "((a b))").2.2.2 malformed _

end Placeholder

end ManifestVariables
