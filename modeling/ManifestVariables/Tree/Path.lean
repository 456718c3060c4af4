import ManifestVariables.Json.Basic
import ManifestVariables.Text

/-!
# Paths in a manifest tree

A path leads from the root of a manifest to one of its nodes. A subtree pattern
describes paths: `SubtreePattern.parse` reads one from text in which `*` stands
for any index and a number for an index or for a key of the same digits.
-/

namespace ManifestVariables

/-- A step from a node to one of its children. -/
inductive Step where
  | key (name : String)
  | index (position : Nat)
deriving DecidableEq, Repr

/-- Steps from the root of a tree. -/
abbrev Path := List Step

/-- A step as it is shown. -/
def Step.text : Step → String
  | key name => name
  | index position => toString position

/-- A path as it is shown, its steps joined with dots. -/
def Path.location (path : Path) : String :=
  ".".intercalate (path.map Step.text)

/-- One part of a subtree pattern. -/
inductive PatternStep where
  | key (name : String)
  | index (position : Nat)
  /-- Any item of an array. -/
  | any
deriving DecidableEq, Repr

/-- A number also names the key that is written with its digits. -/
def PatternStep.covers : PatternStep → Step → Bool
  | key name, .key other => name = other
  | index position, .index other => position = other
  | index position, .key other => toString position = other
  | any, .index _ => true
  | _, _ => false

/-- A description of the root of a subtree. -/
abbrev SubtreePattern := List PatternStep

namespace SubtreePattern

/-- The position that a text writes: decimal digits, a plus sign allowed before
them, below two to the 64. -/
def readPosition? (text : List Char) : Option Nat :=
  let digits := match text with
    | '+' :: rest => rest
    | rest => rest
  let value := digits.foldl (fun value c => value * 10 + (c.toNat - '0'.toNat)) 0
  if !digits.isEmpty && digits.all Char.isDigit && value < Nat.pow 2 64 then some value else none

/-- The pattern step that a piece of text stands for. -/
def readStep (piece : List Char) : PatternStep :=
  if piece = ['*'] then .any
  else match readPosition? piece with
    | some position => .index position
    | none => .key (String.ofList piece)

/-- Reads a pattern from text with dots between its steps; empty pieces are left
out. -/
def parse (text : String) : SubtreePattern :=
  ((Text.pieces '.' text.toList).filter fun piece => !piece.isEmpty).map readStep

/-- Whether a path is described by the pattern, step by step. -/
def covers : SubtreePattern → Path → Bool
  | [], [] => true
  | pattern :: patterns, step :: steps => pattern.covers step && covers patterns steps
  | _, _ => false

end SubtreePattern

/-- Whether some pattern describes the path. -/
def Path.ignoredBy (path : Path) (ignored : List SubtreePattern) : Bool :=
  ignored.any fun pattern => pattern.covers path

/-- The node that a path leads to. -/
def Json.at? : Json → Path → Option Json
  | node, [] => some node
  | .obj fields, .key name :: rest =>
    match Keyed.get? fields name with
    | some child => child.at? rest
    | none => none
  | .arr items, .index position :: rest =>
    match items[position]? with
    | some child => child.at? rest
    | none => none
  | _, _ => none

end ManifestVariables
