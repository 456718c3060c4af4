/-!
# Keyed lists

A finite map kept as a list of pairs in the order in which its keys first
appeared. `Keyed.put` keeps the place of a key that is already there, which is
the order in which objects of a manifest are read and written.
-/

namespace ManifestVariables

/-- Pairs in order of first appearance of their keys. -/
abbrev Keyed (κ α : Type) := List (κ × α)

namespace Keyed

variable {κ α : Type} [DecidableEq κ]

/-- The value of the first pair with this key. -/
def get? : Keyed κ α → κ → Option α
  | [], _ => none
  | (k, v) :: rest, key => if k = key then some v else get? rest key

/-- Whether some pair has this key. -/
def contains (entries : Keyed κ α) (key : κ) : Bool :=
  (get? entries key).isSome

/-- Overwrites the first pair with this key, or adds one at the end. -/
def put : Keyed κ α → κ → α → Keyed κ α
  | [], key, value => [(key, value)]
  | (k, v) :: rest, key, value =>
    if k = key then (k, value) :: rest else (k, v) :: put rest key value

/-- Overwrites the pair with this key, or adds one so that keys that were in
ascending order stay in ascending order. -/
def putOrdered (entries : Keyed String α) (key : String) (value : α) : Keyed String α :=
  match entries with
  | [] => [(key, value)]
  | (k, v) :: rest =>
    if k = key then (k, value) :: rest
    else if key < k then (key, value) :: (k, v) :: rest
    else (k, v) :: putOrdered rest key value

/-- One pair per key in ascending order of the keys, the last value of a repeated
key. -/
def ordered (pairs : List (String × α)) : Keyed String α :=
  pairs.foldl (fun entries entry => putOrdered entries entry.1 entry.2) []

/-- Drops every pair with this key. -/
def erase (entries : Keyed κ α) (key : κ) : Keyed κ α :=
  entries.filter fun entry => entry.1 ≠ key

/-- The keys in order. -/
def keys (entries : Keyed κ α) : List κ :=
  entries.map Prod.fst

/-- One pair per key: the last value of a repeated key, at its first place. -/
def ofPairs (pairs : List (κ × α)) : Keyed κ α :=
  pairs.foldl (fun entries entry => put entries entry.1 entry.2) []

@[simp] theorem get?_put_self (entries : Keyed κ α) (key : κ) (value : α) :
    get? (put entries key value) key = some value := by
  induction entries with
  | nil => simp [put, get?]
  | cons entry rest ih =>
    obtain ⟨k, v⟩ := entry
    by_cases h : k = key <;> simp [put, get?, h, ih]

theorem get?_put_of_ne {key other : κ} (different : other ≠ key)
    (entries : Keyed κ α) (value : α) :
    get? (put entries key value) other = get? entries other := by
  induction entries with
  | nil => simp [put, get?, Ne.symm different]
  | cons entry rest ih =>
    obtain ⟨k, v⟩ := entry
    by_cases h : k = key
    · subst h; simp [put, get?, Ne.symm different]
    · simp only [put, h, if_false, get?]
      rw [ih]

end Keyed

end ManifestVariables
