import ManifestVariables.Json.Basic

/-!
# Records and the formats that write them

The records of this library are read from JSON and from YAML. `DataFormat ν` says
how a value of such a format is looked at, so that every record has one decoder
for all formats. A record may be written with the names of its fields or as a
list of its fields in order; which of the two matters where a field is missing.
-/

namespace ManifestVariables

/-- The fields of a record as they are written. -/
inductive Record (ν : Type) where
  | named (fields : Keyed String ν)
  | placed (items : List ν)

/-- The ways to look at a value of a format. Each gives `none` for a value of
another kind. -/
structure DataFormat (ν : Type) where
  /-- Whether the value stands for an absent one. -/
  isNull : ν → Bool
  /-- A text. -/
  text? : ν → Option String
  /-- A truth value. -/
  flag? : ν → Option Bool
  /-- A natural number below two to the 64. -/
  natural? : ν → Option Nat
  /-- The name of a choice that carries nothing. -/
  choice? : ν → Option String
  /-- A record with fields of the given names, of which none is repeated. -/
  record? : List String → ν → Option (Record ν)
  /-- The pairs of a mapping with text keys, repeated keys included. -/
  entries? : ν → Option (List (String × ν))
  /-- Any value as JSON. -/
  json? : ν → Option Json

namespace Record

variable {ν α : Type}

/-- A field by its place or its name. -/
def field? (record : Record ν) (place : Nat) (name : String) : Option ν :=
  match record with
  | named fields => Keyed.get? fields name
  | placed items => items[place]?

/-- A field that must be written. -/
def required (record : Record ν) (place : Nat) (name : String) (decode : ν → Option α) :
    Option α :=
  (record.field? place name).bind decode

/-- A field with a value of its own where it is not written. -/
def defaulted (record : Record ν) (place : Nat) (name : String) (default : α)
    (decode : ν → Option α) : Option α :=
  match record.field? place name with
  | some value => decode value
  | none => some default

/-- A value that may be null. -/
def nullable (format : DataFormat ν) (decode : ν → Option α) (value : ν) : Option (Option α) :=
  if format.isNull value then some none else (decode value).map some

/-- A field that may be null or left out of a list of fields as well. -/
def optional (format : DataFormat ν) (record : Record ν) (place : Nat) (name : String)
    (decode : ν → Option α) : Option (Option α) :=
  record.defaulted place name none (nullable format decode)

/-- A field that may be null, or left out where the fields have names. -/
def optionalIfNamed (format : DataFormat ν) (record : Record ν) (place : Nat) (name : String)
    (decode : ν → Option α) : Option (Option α) :=
  match record with
  | named _ => record.optional format place name decode
  | placed _ => record.required place name (nullable format decode)

end Record

namespace Json

/-- The name of a choice without content: a text, or an object whose only key is
the name and whose value is null. -/
def choice? : Json → Option String
  | str name => some name
  | obj [(name, null)] => some name
  | _ => none

/-- A record: an object, or an array that is not longer than the names. -/
def record? (names : List String) : Json → Option (Record Json)
  | obj fields => some (.named fields)
  | arr items => if items.length ≤ names.length then some (.placed items) else none
  | _ => none

/-- A natural number below two to the 64. -/
def natural? : Json → Option Nat
  | int value => if 0 ≤ value ∧ value < Nat.pow 2 64 then some value.toNat else none
  | _ => none

/-- A truth value. -/
def flag? : Json → Option Bool
  | bool value => some value
  | _ => none

/-- Whether a value is null. -/
def isNull : Json → Bool
  | null => true
  | _ => false

/-- How JSON values are looked at. -/
def format : DataFormat Json where
  isNull := isNull
  text? := text?
  flag? := flag?
  natural? := natural?
  choice? := choice?
  record? := record?
  entries? := fields?
  json? := some

end Json

end ManifestVariables
