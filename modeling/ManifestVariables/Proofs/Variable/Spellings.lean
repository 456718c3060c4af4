import Mathlib.Data.List.Forall2
import ManifestVariables.Proofs.Keyed
import ManifestVariables.Variable.Declaration

/-!
# The spellings of a declaration

One declaration can be written in many ways: with the names of its fields or as a list of them, with
fields left out, null or unknown, and with its mode as a text or as a choice.
`Declaration.Spelled` says what is read as which declaration, and likewise for its parts and for
generation requests. What is written is one of these spellings, and it is the one that reading and
writing it again leaves as it is (`Declaration.survives_writing`).
-/

namespace ManifestVariables

/-! ### Fields -/

namespace Json

/-- A text is written as itself. -/
def TextSpelled (value : Json) (text : String) : Prop :=
  value = .str text

/-- A truth value is written as itself. -/
def FlagSpelled (value : Json) (flag : Bool) : Prop :=
  value = .bool flag

variable {α : Type}

/-- What may be missing is written as null, or as it is written where it may not. -/
inductive NullableSpelled (spelled : Json → α → Prop) : Json → Option α → Prop where
  | null : NullableSpelled spelled .null none
  | some {value : Json} {a : α} (notNull : value ≠ .null) (written : spelled value a) :
      NullableSpelled spelled value (some a)

/-- A mapping is written as an object, with one entry for each of its pairs. -/
def EntriesSpelled (spelled : Json → α → Prop) (value : Json) (pairs : List (String × α)) : Prop :=
  ∃ entries, value = .obj entries ∧
    List.Forall₂ (fun entry pair => entry.1 = pair.1 ∧ spelled entry.2 pair.2) entries pairs

end Json

section Fields

variable {α : Type} (record : Record Json) (place : Nat) (name : String)
  (spelled : Json → α → Prop) (default : α)

/-- A field is there, and its value is one of the spellings. -/
def Record.Writes (a : α) : Prop :=
  ∃ value, record.field? place name = some value ∧ spelled value a

/-- A field is there, or is left out and has its default. -/
inductive Record.WritesOrOmits : α → Prop where
  | omitted (absent : record.field? place name = none) : WritesOrOmits default
  | written {a : α} (writes : record.Writes place name spelled a) : WritesOrOmits a

end Fields

namespace Json

variable {α : Type} {decode : Json → Option α} {spelled : Json → α → Prop}

/-- The values that are read are the ones that are spelled so. -/
def Reads (decode : Json → Option α) (spelled : Json → α → Prop) : Prop :=
  ∀ value a, decode value = some a ↔ spelled value a

theorem reads_text : Reads text? TextSpelled := by
  rintro (_ | _ | _ | _ | _ | _ | _) text <;> simp [text?, TextSpelled]

theorem reads_flag : Reads flag? FlagSpelled := by
  rintro (_ | _ | _ | _ | _ | _ | _) flag <;> simp [flag?, FlagSpelled]

theorem reads_json : Reads format.json? Eq :=
  fun _ _ => Option.some_inj

namespace Reads

theorem nullable (reads : Reads decode spelled) :
    Reads (Record.nullable format decode) (NullableSpelled spelled) := by
  intro value any
  -- Null stands for nothing, even where it could be read as something.
  have other (notNull : value ≠ .null) :
      Record.nullable format decode value = (decode value).map some := by
    cases value <;> first | rfl | exact absurd rfl notNull
  constructor
  · intro read
    by_cases null : value = .null
    · subst null
      cases read
      exact .null
    · rw [other null] at read
      obtain ⟨a, one, rfl⟩ := Option.map_eq_some_iff.mp read
      exact .some null ((reads value a).mp one)
  · rintro (_ | ⟨notNull, written⟩)
    · rfl
    · rw [other notNull, (reads value _).mpr written]
      rfl

/-- The entries of a mapping are read one by one. -/
theorem entries (reads : Reads decode spelled) :
    Reads (Declaration.decodeEntries? format decode) (EntriesSpelled spelled) := by
  have each (entry : String × Json) (pair : String × α) :
      ((decode entry.2).map fun decoded => (entry.1, decoded)) = some pair ↔
        entry.1 = pair.1 ∧ spelled entry.2 pair.2 := by
    rw [← reads entry.2 pair.2, Option.map_eq_some_iff]
    constructor
    · rintro ⟨a, read, rfl⟩
      exact ⟨rfl, read⟩
    · rintro ⟨key, read⟩
      exact ⟨_, read, Prod.ext key rfl⟩
  have all (entries : List (String × Json)) (pairs : List (String × α)) :
      (entries.mapM fun entry => (decode entry.2).map fun decoded => (entry.1, decoded)) =
          some pairs ↔
        List.Forall₂ (fun entry pair => entry.1 = pair.1 ∧ spelled entry.2 pair.2)
          entries pairs := by
    induction entries generalizing pairs with
    | nil => cases pairs <;> simp
    | cons entry rest ih =>
      cases pairs with
      | nil => simp [List.mapM_cons, Option.bind_eq_some_iff]
      | cons pair others =>
        rw [List.forall₂_cons, ← each, ← ih]
        simp [List.mapM_cons, Option.bind_eq_some_iff]
  intro value pairs
  cases value <;> simp [Declaration.decodeEntries?, format, fields?, EntriesSpelled, all]

variable (record : Record Json) (place : Nat) (name : String)

theorem required (reads : Reads decode spelled) (a : α) :
    record.required place name decode = some a ↔ record.Writes place name spelled a := by
  rw [Record.required, Option.bind_eq_some_iff]
  exact exists_congr fun value => and_congr_right fun _ => reads value a

theorem defaulted (reads : Reads decode spelled) (default a : α) :
    record.defaulted place name default decode = some a ↔
      record.WritesOrOmits place name spelled default a := by
  unfold Record.defaulted
  constructor
  · intro read
    split at read
    next value here => exact .written ⟨value, here, (reads value a).mp read⟩
    next absent =>
      cases read
      exact .omitted absent
  · rintro (absent | ⟨value, here, written⟩)
    · rw [absent]
    · rw [here]
      exact (reads value a).mpr written

theorem optional (reads : Reads decode spelled) (any : Option α) :
    record.optional format place name decode = some any ↔
      record.WritesOrOmits place name (NullableSpelled spelled) none any :=
  reads.nullable.defaulted record place name none any

end Reads

end Json

/-! ### The parts of a declaration -/

/-- A mode is written as its name or as a choice that carries nothing. -/
inductive UpdateMode.Spelled : Json → UpdateMode → Prop where
  | name (mode : UpdateMode) : Spelled (.str mode.text) mode
  | choice (mode : UpdateMode) : Spelled (.obj [(mode.text, .null)]) mode

theorem UpdateMode.text_of_ofText? {text : String} {mode : UpdateMode}
    (read : ofText? text = some mode) : text = mode.text := by
  unfold ofText? at read
  split at read <;> cases read <;> rfl

theorem UpdateMode.reads : Json.Reads (decode? Json.format) Spelled := by
  intro value mode
  constructor
  · intro read
    obtain ⟨text, chosen, named⟩ := Option.bind_eq_some_iff.mp read
    obtain rfl := text_of_ofText? named
    change Json.choice? value = some mode.text at chosen
    unfold Json.choice? at chosen
    split at chosen
    · cases chosen
      exact .name mode
    · cases chosen
      exact .choice mode
    · cases chosen
  · rintro (_ | _) <;> exact ofText?_text mode

namespace ConsumedLink

/-- The properties of a link are a record whose only field is false where it is left out. -/
def WildcardSpelled (value : Json) (wildcard : Bool) : Prop :=
  ∃ record, Json.record? ["wildcard"] value = some record ∧
    record.WritesOrOmits 0 "wildcard" Json.FlagSpelled false wildcard

/-- What the fields of a written link stand for. -/
structure SpelledIn (record : Record Json) (link : ConsumedLink) : Prop where
  source : record.Writes 0 "from" Json.TextSpelled link.source
  wildcard : record.WritesOrOmits 1 "properties" WildcardSpelled false link.wildcard

/-- A link is a record of its source and, if it has any, its properties. -/
def Spelled (value : Json) (link : ConsumedLink) : Prop :=
  ∃ record, Json.record? ["from", "properties"] value = some record ∧ SpelledIn record link

theorem reads_wildcard : Json.Reads (decodeWildcard? Json.format) WildcardSpelled := by
  intro value wildcard
  rw [decodeWildcard?, Option.bind_eq_bind, Option.bind_eq_some_iff]
  exact exists_congr fun record => and_congr_right fun _ =>
    Json.reads_flag.defaulted record 0 "wildcard" false wildcard

theorem reads : Json.Reads (decode? Json.format) Spelled := by
  intro value link
  rw [decode?, Option.bind_eq_bind, Option.bind_eq_some_iff]
  refine exists_congr fun record => and_congr_right fun _ => ?_
  have source := Json.reads_text.required record 0 "from"
  have wildcard := reads_wildcard.defaulted record 1 "properties" false
  simp only [Option.bind_eq_bind, Option.bind_eq_some_iff, Option.pure_def, Option.some.injEq]
  constructor
  · rintro ⟨_, sourceRead, _, wildcardRead, rfl⟩
    exact ⟨(source _).mp sourceRead, (wildcard _).mp wildcardRead⟩
  · rintro ⟨sourceWritten, wildcardWritten⟩
    exact ⟨_, (source _).mpr sourceWritten, _, (wildcard _).mpr wildcardWritten, rfl⟩

theorem spelled_encode (link : ConsumedLink) : Spelled link.encode link :=
  ⟨.named _, rfl, ⟨_, rfl, rfl⟩, .written ⟨_, rfl, .named _, rfl, .written ⟨_, rfl, rfl⟩⟩⟩

end ConsumedLink

/-! ### Declarations -/

namespace Declaration

/-- The options are an object; where a key is repeated, its last value counts. -/
def OptionsSpelled (value : Json) (options : Keyed String Json) : Prop :=
  ∃ fields, value = .obj fields ∧ options = Keyed.ofPairs fields

/-- The consumed links are an object of links, in any order. -/
def LinksSpelled (value : Json) (links : Keyed String ConsumedLink) : Prop :=
  ∃ pairs, Json.EntriesSpelled ConsumedLink.Spelled value pairs ∧ links = Keyed.ordered pairs

/-- What the fields of a written declaration stand for. -/
structure SpelledIn (record : Record Json) (declaration : Declaration) : Prop where
  name : record.Writes 0 "name" Json.TextSpelled declaration.name
  type : record.Writes 1 "type" Json.TextSpelled declaration.type
  options : record.WritesOrOmits 2 "options" OptionsSpelled [] declaration.options
  consumes : record.WritesOrOmits 3 "consumes" (Json.NullableSpelled LinksSpelled) none
    declaration.consumes
  updateMode : record.WritesOrOmits 4 "update_mode" (Json.NullableSpelled UpdateMode.Spelled) none
    declaration.updateMode

/-- A declaration is a record that needs no more than a name and a type. -/
def Spelled (value : Json) (declaration : Declaration) : Prop :=
  ∃ record, Json.record? fieldNames value = some record ∧ SpelledIn record declaration

/-- No option is there twice, and the links are in ascending order of their kinds. -/
structure Proper (declaration : Declaration) : Prop where
  options : (Keyed.keys declaration.options).Nodup
  consumes : ∀ links, declaration.consumes = some links → Keyed.Ascending links

theorem reads_options :
    Json.Reads (fun value => (decodeEntries? Json.format Json.format.json? value).map Keyed.ofPairs)
      OptionsSpelled := by
  intro value options
  simp only [Option.map_eq_some_iff, Json.reads_json.entries value, Json.EntriesSpelled,
    OptionsSpelled, ← Prod.ext_iff, List.forall₂_eq_eq_eq]
  constructor
  · rintro ⟨_, ⟨fields, rfl, rfl⟩, rfl⟩
    exact ⟨fields, rfl, rfl⟩
  · rintro ⟨fields, rfl, rfl⟩
    exact ⟨fields, ⟨fields, rfl, rfl⟩, rfl⟩

theorem reads_links :
    Json.Reads (fun value =>
      (decodeEntries? Json.format (ConsumedLink.decode? Json.format) value).map Keyed.ordered)
      LinksSpelled := by
  intro value links
  rw [Option.map_eq_some_iff]
  exact exists_congr fun pairs => and_congr (ConsumedLink.reads.entries value pairs) eq_comm

theorem reads : Json.Reads (decode? Json.format) Spelled := by
  intro value declaration
  rw [decode?, Option.bind_eq_bind, Option.bind_eq_some_iff]
  refine exists_congr fun record => and_congr_right fun _ => ?_
  have name := Json.reads_text.required record 0 "name"
  have type := Json.reads_text.required record 1 "type"
  have options := reads_options.defaulted record 2 "options" []
  have consumes := reads_links.optional record 3 "consumes"
  have updateMode := UpdateMode.reads.optional record 4 "update_mode"
  simp only [Option.bind_eq_bind, Option.bind_eq_some_iff, Option.pure_def, Option.some.injEq]
  constructor
  · rintro ⟨_, nameRead, _, typeRead, _, optionsRead, _, consumesRead, _, modeRead, rfl⟩
    exact ⟨(name _).mp nameRead, (type _).mp typeRead, (options _).mp optionsRead,
      (consumes _).mp consumesRead, (updateMode _).mp modeRead⟩
  · intro written
    exact ⟨_, (name _).mpr written.name, _, (type _).mpr written.type,
      _, (options _).mpr written.options, _, (consumes _).mpr written.consumes,
      _, (updateMode _).mpr written.updateMode, rfl⟩

theorem linksSpelled_encode {links : Keyed String ConsumedLink}
    (ascending : Keyed.Ascending links) :
    LinksSpelled (.obj (links.map fun entry => (entry.1, entry.2.encode))) links := by
  refine ⟨links, ⟨_, rfl, ?_⟩, (Keyed.ordered_of_ascending ascending).symm⟩
  rw [List.forall₂_map_left_iff]
  exact List.forall₂_same.mpr fun entry _ => ⟨rfl, entry.2.spelled_encode⟩

theorem Proper.spelled_encode {declaration : Declaration} (proper : Proper declaration) :
    Spelled declaration.encode declaration := by
  obtain ⟨name, type, options, consumes, updateMode⟩ := declaration
  refine ⟨.named _, rfl, ⟨_, rfl, rfl⟩, ⟨_, rfl, rfl⟩,
    .written ⟨_, rfl, _, rfl, (Keyed.ofPairs_of_nodup proper.options).symm⟩, ?_, ?_⟩
  -- Whether the links and the mode are written decides which fields there are.
  · cases consumes with
    | none => cases updateMode <;> exact .omitted rfl
    | some links =>
      exact .written ⟨_, rfl, .some nofun (linksSpelled_encode (proper.consumes links rfl))⟩
  · cases updateMode with
    | none => cases consumes <;> exact .omitted rfl
    | some mode => cases consumes <;> exact .written ⟨_, rfl, .some nofun (.name mode)⟩

theorem Spelled.proper {value : Json} {declaration : Declaration}
    (spelled : Spelled value declaration) : Proper declaration := by
  obtain ⟨name, type, options, consumes, updateMode⟩ := declaration
  obtain ⟨record, _, written⟩ := spelled
  constructor
  · rcases written.options with _ | ⟨_, _, fields, _, rfl⟩
    · exact .nil
    · exact (Keyed.ofPairs_spec fields).1
  · rintro _ rfl
    obtain _ | ⟨_, _, _ | ⟨_, pairs, _, rfl⟩⟩ := written.consumes
    exact Keyed.ascending_ordered pairs

end Declaration

/-! ### Generation requests -/

namespace GenerationRequest

/-- What the fields of a written request stand for. -/
structure SpelledIn (record : Record Json) (request : GenerationRequest) : Prop where
  name : record.Writes 0 "name" Json.TextSpelled request.name
  type : record.Writes 1 "type" Json.TextSpelled request.type
  parameters : record.Writes 2 "parameters" Eq request.parameters
  mode : record.Writes 3 "mode" UpdateMode.Spelled request.mode

/-- A request is a record of all its fields. -/
def Spelled (value : Json) (request : GenerationRequest) : Prop :=
  ∃ record, Json.record? fieldNames value = some record ∧ SpelledIn record request

theorem reads : Json.Reads (decode? Json.format) Spelled := by
  intro value request
  rw [decode?, Option.bind_eq_bind, Option.bind_eq_some_iff]
  refine exists_congr fun record => and_congr_right fun _ => ?_
  have name := Json.reads_text.required record 0 "name"
  have type := Json.reads_text.required record 1 "type"
  have parameters := Json.reads_json.required record 2 "parameters"
  have mode := UpdateMode.reads.required record 3 "mode"
  simp only [Option.bind_eq_bind, Option.bind_eq_some_iff, Option.pure_def, Option.some.injEq]
  constructor
  · rintro ⟨_, nameRead, _, typeRead, _, parametersRead, _, modeRead, rfl⟩
    exact ⟨(name _).mp nameRead, (type _).mp typeRead, (parameters _).mp parametersRead,
      (mode _).mp modeRead⟩
  · intro written
    exact ⟨_, (name _).mpr written.name, _, (type _).mpr written.type,
      _, (parameters _).mpr written.parameters, _, (mode _).mpr written.mode, rfl⟩

theorem spelled_encode (request : GenerationRequest) : Spelled request.encode request :=
  ⟨.named _, rfl, ⟨_, rfl, rfl⟩, ⟨_, rfl, rfl⟩, ⟨_, rfl, rfl⟩, ⟨_, rfl, .name request.mode⟩⟩

end GenerationRequest

/-! ### Writing and reading again -/

/-- Values that are written can be read, and are the same again. -/
structure SurvivesWriting {α : Type} (decode : Json → Option α) (encode : α → Json)
    (Proper : α → Prop) (Spelled : Json → α → Prop) : Prop where
  readsBack : ∀ a, Proper a → decode (encode a) = some a
  reads : Json.Reads decode Spelled
  proper : ∀ value a, decode value = some a → Proper a
  /-- Where something was read, what is written for it means the same and is written as it is. -/
  rewritten : ∀ value written, (decode value).map encode = some written →
    decode written = decode value ∧ (decode written).map encode = some written

/-- It is enough that what is proper is spelled as it is written, and that nothing else is
spelled. -/
theorem SurvivesWriting.of_reads {α : Type} {decode : Json → Option α} {encode : α → Json}
    {Proper : α → Prop} {Spelled : Json → α → Prop} (reads : Json.Reads decode Spelled)
    (spelled : ∀ a, Proper a → Spelled (encode a) a)
    (proper : ∀ value a, Spelled value a → Proper a) :
    SurvivesWriting decode encode Proper Spelled where
  readsBack a known := (reads (encode a) a).mpr (spelled a known)
  reads := reads
  proper value a read := proper value a ((reads value a).mp read)
  rewritten value written wrote := by
    obtain ⟨a, read, rfl⟩ := Option.map_eq_some_iff.mp wrote
    have back : decode (encode a) = some a :=
      (reads (encode a) a).mpr (spelled a (proper value a ((reads value a).mp read)))
    exact ⟨back.trans read.symm, by rw [back, Option.map_some]⟩

/-- Declarations and generation requests survive being written: what was written is read back, and
every spelling that is read at all is rewritten to one that means the same and stays as it is. -/
theorem Declaration.survives_writing :
    SurvivesWriting (decode? Json.format) encode Proper Spelled ∧
      SurvivesWriting (GenerationRequest.decode? Json.format) GenerationRequest.encode
        (fun _ => True) GenerationRequest.Spelled :=
  ⟨.of_reads reads (fun _ proper => proper.spelled_encode) (fun _ _ spelled => spelled.proper),
    .of_reads GenerationRequest.reads (fun request _ => request.spelled_encode)
      (fun _ _ _ => trivial)⟩

example : (Declaration.decode? Json.format
      (.arr [.str "db", .str "password", .obj [], .null, .obj [("converge", .null)]])).map
        Declaration.encode =
    some (.obj [("name", .str "db"), ("type", .str "password"), ("options", .obj []),
      ("update_mode", .str "converge")]) :=
  rfl

end ManifestVariables
