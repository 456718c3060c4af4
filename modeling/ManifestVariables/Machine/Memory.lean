import ManifestVariables.Keyed
import ManifestVariables.Machine.Basic
import ManifestVariables.Text

/-!
# A machine in memory

The files of `Memory` are kept by their paths from the root; a directory is there
as long as something is in it, or if it is listed. Nothing listens on the network,
so every request is refused. Time passes only by waiting.
-/

namespace ManifestVariables.Machine

/-- The names on the way from the root to a file. -/
abbrev Names := List String

/-- Files, directories without files, and the time. -/
structure Memory where
  /-- The directory that relative paths start from. -/
  directory : Names
  directories : List Names
  files : Keyed Names String
  now : Nat

namespace Memory

/-- What names from the root lead to. -/
def kind? (memory : Memory) (names : Names) : Option FileKind :=
  if Keyed.contains memory.files names then some .file
  else if names.isEmpty || names.isPrefixOf memory.directory ||
      memory.directories.any names.isPrefixOf ||
      memory.files.any fun entry => names.isPrefixOf entry.1 then
    some .directory
  else none

/-- Follows the parts of a path from a place. Every part but the last must be a
directory. -/
def follow (memory : Memory) (place : Names) : List String → Except FileError Names
  | [] => .ok place
  | part :: rest =>
    match memory.kind? place with
    | none => .error .missing
    | some .file => .error .notDirectory
    | some .directory =>
      if part = "" ∨ part = "." then follow memory place rest
      else if part = ".." then follow memory place.dropLast rest
      else follow memory (place ++ [part]) rest

/-- The names from the root that a path stands for. The empty path leads nowhere. -/
def locate (memory : Memory) (path : String) : Except FileError Names :=
  let parts := (Text.pieces '/' path.toList).map String.ofList
  match parts with
  | [""] => .error .missing
  | "" :: rest => memory.follow [] rest
  | parts => memory.follow memory.directory parts

/-- Answers a question from the files. -/
def answer (need : Need) (memory : Memory) : need.Reply × Memory :=
  match need with
  | .read path =>
    (do
      let names ← memory.locate path
      match Keyed.get? memory.files names with
      | some text => return text
      | none =>
        match memory.kind? names with
        | some _ => throw .isDirectory
        | none => throw .missing, memory)
  | .write path text =>
    match memory.locate path with
    | .error cause => (.error cause, memory)
    | .ok names =>
      match memory.kind? names with
      | some .directory => (.error .isDirectory, memory)
      | some .file => (.ok (), { memory with files := Keyed.put memory.files names text })
      | none =>
        match memory.kind? names.dropLast with
        | some .directory => (.ok (), { memory with files := Keyed.put memory.files names text })
        | some .file => (.error .notDirectory, memory)
        | none => (.error .missing, memory)
  | .kind path =>
    (match memory.locate path with
      | .ok names => memory.kind? names
      | .error _ => none, memory)
  | .exchange _ => (.error .refused, memory)
  | .now => (memory.now, memory)
  | .sleep milliseconds => ((), { memory with now := memory.now + milliseconds * 1000000 })

end Memory

end ManifestVariables.Machine
