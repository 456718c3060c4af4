import ManifestVariables.Proofs.Name.Namespaces
import ManifestVariables.Proofs.Name.Spelling

/-!
# Splitting names

A name is split into a base and keys at the dots behind its last slash. `NamePath.IsSplit` says
what such a base and such keys look like, and a name is split into nothing else: the base and
the keys that make it up are what it is split into (`NamePath.parse_text`). So whatever else is
known about the parts of a name, that its spelling gives them or that they were qualified, is
known about what `NamePath.parse` gives (`NamePath.parse_exact`).
-/

namespace ManifestVariables

namespace Text

variable {separator : Char} {last : List Char}

/-- What has no separator goes to the part behind the last one. -/
theorem splitLast_append_of_not_mem (front : List Char) (free : separator ∉ last) :
    splitLast separator (front ++ last) =
      ((splitLast separator front).1, (splitLast separator front).2 ++ last) := by
  rcases not_mem_or_exists_last separator front with none | ⟨before, between, rfl, none⟩
  · rw [splitLast_of_not_mem none, splitLast_of_not_mem (by simp [none, free])]
  · rw [List.append_assoc, List.cons_append, splitLast_append_cons none,
      splitLast_append_cons (by simp [none, free])]

theorem snd_splitLast_append_cons (separator : Char) (front rest : List Char) :
    (splitLast separator (front ++ separator :: rest)).2 = (splitLast separator rest).2 := by
  rcases not_mem_or_exists_last separator rest with free | ⟨before, last, rfl, free⟩
  · rw [splitLast_append_cons free, splitLast_of_not_mem free]
  · have whole : front ++ separator :: (before ++ separator :: last) =
        (front ++ separator :: before) ++ separator :: last := by simp
    rw [whole, splitLast_append_cons free, splitLast_append_cons free]

theorem not_mem_snd_splitLast (separator : Char) (text : List Char) :
    separator ∉ (splitLast separator text).2 := by
  rcases not_mem_or_exists_last separator text with free | ⟨front, last, rfl, free⟩
  · rwa [splitLast_of_not_mem free]
  · rwa [splitLast_append_cons free]

/-- Nothing stands behind the last separator of the part up to it. -/
theorem splitLast_fst (separator : Char) (text : List Char) :
    splitLast separator (splitLast separator text).1 = ((splitLast separator text).1, []) := by
  rcases not_mem_or_exists_last separator text with free | ⟨front, last, rfl, free⟩
  · rw [splitLast_of_not_mem free]
    rfl
  · rw [splitLast_append_cons free, splitLast_append_cons List.not_mem_nil]

end Text

namespace NamePath

variable {name director deployment : String} {path : NamePath}

/-- The name that a base and keys make up: a dot stands before each key. -/
def text (path : NamePath) : String :=
  path.base ++ String.join (path.keys.map ("." ++ ·))

/-- All dots behind the last slash have become the ends of the base and of keys. -/
structure IsSplit (path : NamePath) : Prop where
  base : '.' ∉ (Text.splitLast '/' path.base.toList).2
  keys : ∀ key ∈ path.keys, '.' ∉ key.toList ∧ '/' ∉ key.toList

theorem toList_text (path : NamePath) :
    path.text.toList = path.base.toList ++ (path.keys.map String.toList).flatMap ('.' :: ·) := by
  have keys (keys : List String) : (String.join (keys.map ("." ++ ·))).toList =
      (keys.map String.toList).flatMap ('.' :: ·) := by
    induction keys with
    | nil => rfl
    | cons key rest ih => simp [ih]
  rw [text, String.toList_append, keys]

/-- A base and keys are what the name that they make up is split into. -/
theorem parse_text (split : path.IsSplit) : parse path.text = path := by
  obtain ⟨base, keys⟩ := path
  obtain ⟨dotless, free⟩ := split
  have slashless : '/' ∉ (keys.map String.toList).flatMap ('.' :: ·) := by
    simpa using fun key member => (free key member).2
  have pieces : Text.pieces '.' ((Text.splitLast '/' base.toList).2 ++
      (keys.map String.toList).flatMap ('.' :: ·)) =
        (Text.splitLast '/' base.toList).2 :: keys.map String.toList := by
    rw [← Text.join_cons, Text.pieces_join (List.cons_ne_nil _ _)]
    simpa using ⟨dotless, fun key member => (free key member).1⟩
  simp only [parse, toList_text, Text.splitLast_append_of_not_mem _ slashless, pieces,
    Text.splitLast_append, List.map_map, Function.comp_def, String.ofList_toList, List.map_id']

/-- Splitting a name loses nothing. -/
theorem text_parse (name : String) : (parse name).text = name := by
  rw [← String.toList_inj, toList_text]
  have whole := Text.splitLast_append '/' name.toList
  have joined := Text.join_pieces '.' (Text.splitLast '/' name.toList).2
  obtain ⟨head, keys, pieces⟩ :=
    List.exists_cons_of_ne_nil (Text.pieces_ne_nil '.' (Text.splitLast '/' name.toList).2)
  rw [pieces, Text.join_cons] at joined
  simp only [parse, pieces, List.map_map, Function.comp_def, String.toList_ofList, List.map_id',
    List.append_assoc, joined, whole]

theorem isSplit_parse (name : String) : (parse name).IsSplit := by
  have free := Text.not_mem_snd_splitLast '/' name.toList
  obtain ⟨head, keys, pieces⟩ :=
    List.exists_cons_of_ne_nil (Text.pieces_ne_nil '.' (Text.splitLast '/' name.toList).2)
  have each : ∀ piece ∈ head :: keys, '.' ∉ piece ∧ '/' ∉ piece := fun piece member =>
    ⟨Text.not_mem_of_mem_pieces (pieces ▸ member),
      fun slash => free (Text.subset_of_mem_pieces (pieces ▸ member) slash)⟩
  obtain ⟨⟨dotless, slashless⟩, later⟩ := List.forall_mem_cons.mp each
  constructor
  · simp only [parse, pieces, String.toList_ofList,
      Text.splitLast_append_of_not_mem _ slashless, Text.splitLast_fst, List.nil_append]
    exact dotless
  · simpa [parse, pieces] using later

/-- The base of a name is absolute exactly if the name is. -/
theorem isAbsolute_base (name : String) :
    Name.isAbsolute (parse name).base = Name.isAbsolute name := by
  cases relative : Name.isAbsolute name with
  | true => exact Name.isAbsolute_base relative
  | false =>
    have whole := congrArg String.toList (text_parse name)
    rw [toList_text] at whole
    simp only [Name.isAbsolute, decide_eq_false_iff_not] at relative ⊢
    intro first
    rw [← whole, List.head?_append, first] at relative
    exact relative rfl

/-- Qualifying the base keeps it free of the dots that split a name. -/
theorem IsSplit.qualify (split : path.IsSplit) (director deployment : String) :
    IsSplit ⟨Name.qualify director deployment path.base, path.keys⟩ := by
  refine ⟨?_, split.keys⟩
  cases relative : Name.isAbsolute path.base with
  | true =>
    rw [Name.qualify_of_absolute relative]
    exact split.base
  | false =>
    dsimp only
    rw [Name.toList_qualify relative, Text.snd_splitLast_append_cons]
    exact split.base

theorem text_qualify (absolute : Name.isAbsolute path.base = Name.isAbsolute path.text)
    (director deployment : String) :
    text ⟨Name.qualify director deployment path.base, path.keys⟩ =
      Name.qualify director deployment path.text := by
  cases relative : Name.isAbsolute path.text with
  | true => rw [Name.qualify_of_absolute (absolute.trans relative), Name.qualify_of_absolute relative]
  | false =>
    rw [← String.toList_inj, Name.toList_qualify relative, toList_text, toList_text,
      Name.toList_qualify (absolute.trans relative)]
    simp

/-- Splitting commutes with qualification. -/
theorem parse_qualify (director deployment name : String) :
    parse (Name.qualify director deployment name) =
      ⟨Name.qualify director deployment (parse name).base, (parse name).keys⟩ := by
  have absolute : Name.isAbsolute (parse name).base = Name.isAbsolute (parse name).text := by
    rw [text_parse, isAbsolute_base]
  have whole := text_qualify absolute director deployment
  rw [text_parse] at whole
  rw [← whole, parse_text ((isSplit_parse name).qualify director deployment)]

end NamePath

namespace Name

variable {name : String} {text : List Char}

theorem IsWord.separated (word : IsWord text) : '/' ∉ text ∧ '.' ∉ text :=
  not_mem_of_isWordChar (isWord_iff.mp word).2

/-- What is spelled without the keys. -/
def Spelling.base (spelling : Spelling) : Spelling :=
  { spelling with keys := [], keys_isWord := nofun }

theorem Spelling.chars_eq (spelling : Spelling) :
    spelling.chars = spelling.base.chars ++ spelling.keys.flatMap ('.' :: ·) := by
  have base : spelling.base.chars =
      (if spelling.rooted then ['/'] else []) ++ Text.join '/' spelling.words := List.append_nil _
  rw [base]
  rfl

theorem Spelling.not_mem_base (spelling : Spelling) : '.' ∉ spelling.base.chars := by
  have words : '.' ∉ Text.join '/' spelling.words := by
    intro dot
    rcases Text.mem_join dot with same | ⟨word, member, inside⟩
    · exact absurd same (by decide)
    · exact (spelling.words_isWord word member).separated.2 inside
  cases rooted : spelling.rooted <;> simp [Spelling.chars, Spelling.base, rooted, words]

/-- A spelled name is split into what it is spelled from. -/
theorem Spelling.parse_eq (spelling : Spelling) (spelled : name.toList = spelling.chars) :
    NamePath.parse name =
      ⟨String.ofList spelling.base.chars, spelling.keys.map String.ofList⟩ := by
  have split : NamePath.IsSplit
      ⟨String.ofList spelling.base.chars, spelling.keys.map String.ofList⟩ := by
    constructor
    · intro dot
      rw [String.toList_ofList] at dot
      refine spelling.not_mem_base ?_
      rw [← Text.splitLast_append '/' spelling.base.chars]
      exact List.mem_append_right _ dot
    · simpa using fun key member => (spelling.keys_isWord key member).separated.symm
  rw [← NamePath.parse_text split]
  refine congrArg NamePath.parse (String.toList_injective ?_)
  rw [NamePath.toList_text, spelled, Spelling.chars_eq]
  simp

/-- The base of a valid name is a valid name without dots, and its keys are nonempty and have
no dots and no slashes. -/
theorem Valid.parse (valid : Valid name.toList) :
    Valid (NamePath.parse name).base.toList ∧ '.' ∉ (NamePath.parse name).base.toList ∧
      ∀ key ∈ (NamePath.parse name).keys, key ≠ "" ∧ '.' ∉ key.toList ∧ '/' ∉ key.toList := by
  obtain ⟨spelling, spelled⟩ := valid_iff_spelled.mp valid
  rw [spelling.parse_eq spelled]
  simp only [String.toList_ofList]
  refine ⟨valid_iff_spelled.mpr ⟨spelling.base, rfl⟩, spelling.not_mem_base, ?_⟩
  intro key member
  obtain ⟨word, among, rfl⟩ := List.mem_map.mp member
  have isWord := spelling.keys_isWord word among
  have filled : String.ofList word ≠ "" := fun empty =>
    isWord.nonempty (by simpa using congrArg String.toList empty)
  rw [String.toList_ofList]
  exact ⟨filled, isWord.separated.2, isWord.separated.1⟩

end Name

namespace NamePath

/-- Splitting loses nothing: the base and the keys make up the name, so no two names are split
into the same. The base of a valid name is a valid name without dots, and its keys are neither
empty nor have dots or slashes. It makes no difference whether a name is split before it is
qualified or after, and the base is absolute just where the name is. -/
theorem parse_exact (name director deployment : String) :
    (parse name).base ++ String.join ((parse name).keys.map ("." ++ ·)) = name ∧
    (∀ other, parse name = parse other → name = other) ∧
    (Name.validate name = .ok () →
      Name.validate (parse name).base = .ok () ∧ '.' ∉ (parse name).base.toList ∧
        ∀ key ∈ (parse name).keys, key ≠ "" ∧ '.' ∉ key.toList ∧ '/' ∉ key.toList) ∧
    parse (Name.qualify director deployment name) =
      ⟨Name.qualify director deployment (parse name).base, (parse name).keys⟩ ∧
    Name.isAbsolute (parse name).base = Name.isAbsolute name := by
  refine ⟨text_parse name, ?_, ?_, parse_qualify director deployment name, isAbsolute_base name⟩
  · intro other same
    rw [← text_parse name, same, text_parse]
  · intro valid
    rw [Name.validate_eq_ok_iff] at valid ⊢
    exact valid.parse

theorem parse_exact_rooted :
    Name.validate "/d1/dep/cert.ca.0" = .ok () ∧
      Name.validate (parse "/d1/dep/cert.ca.0").base = .ok () ∧
      (parse "/d1/dep/cert.ca.0").base ++
        String.join ((parse "/d1/dep/cert.ca.0").keys.map ("." ++ ·)) = "/d1/dep/cert.ca.0" := by
  have valid : Name.validate "/d1/dep/cert.ca.0" = .ok () := by decide
  obtain ⟨whole, _, parts, _⟩ := parse_exact "/d1/dep/cert.ca.0" "d1" "dep"
  exact ⟨valid, (parts valid).1, whole⟩

end NamePath

end ManifestVariables
