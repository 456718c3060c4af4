import ManifestVariables.Yaml.Scalar.Block
import ManifestVariables.Yaml.Scalar.Plain
import ManifestVariables.Yaml.Scalar.Quoted
import ManifestVariables.Yaml.Token

/-!
# The layout of a YAML text

`Layout.tokens?` splits a text into its tokens. A node may turn out to be a key only
when the colon behind it is reached, so the place of every node that could be one is
kept for as long as the colon may come: on the same line, within 1024 characters.
Outside brackets the columns of the enclosing collections are kept as well, and a
token that stands left of a collection ends it.
-/

namespace ManifestVariables.Yaml

/-- A node that may turn out to be a key. -/
structure PossibleKey where
  /-- The number of tokens before it. -/
  place : Nat
  /-- Whether nothing else can stand in its place. -/
  required : Bool
  index : Nat
  line : Nat
  column : Nat

/-- How far a text has been split. -/
structure Layout where
  cursor : Cursor
  /-- The tokens so far, the last one first. -/
  tokens : List Token
  count : Nat
  /-- The columns of the enclosing block collections, the innermost first. -/
  columns : List Nat
  /-- The possible keys: of the innermost brackets first, of the blocks around all
  brackets last. -/
  keys : List (Option PossibleKey)
  /-- How many brackets are open. -/
  brackets : Nat
  /-- Whether a key may start here. -/
  keyAllowed : Bool

namespace Layout

/-- The start of a text. -/
def start (text : List Char) : Layout :=
  { cursor := .start text, tokens := [], count := 0, columns := [], keys := [none],
    brackets := 0, keyAllowed := true }

/-- Whether the cursor is within brackets. -/
def inFlow (s : Layout) : Bool :=
  0 < s.brackets

/-- The layout with one more token. -/
def emit (s : Layout) (token : Token) : Layout :=
  { s with tokens := token :: s.tokens, count := s.count + 1 }

/-- The layout with a token inserted behind the first `place` ones. -/
def emitAt (s : Layout) (place : Nat) (token : Token) : Layout :=
  { s with
    tokens := s.tokens.take (s.count - place) ++ token :: s.tokens.drop (s.count - place)
    count := s.count + 1 }

/-- The layout with the cursor moved. -/
def move (s : Layout) (c : Cursor) : Layout :=
  { s with cursor := c }

/-- The layout with the cursor behind some characters of the line. -/
def skip (s : Layout) (count : Nat) : Layout :=
  s.move (s.cursor.advance count)

/-- Whether a key may start from here on. -/
def allowKey (s : Layout) (allowed : Bool) : Layout :=
  { s with keyAllowed := allowed }

/-- Begins a block collection at a column, unless one is open there. -/
def openBlock (s : Layout) (column place : Nat) (token : Token) : Layout :=
  let deeper := match s.columns with
    | outer :: _ => outer < column
    | [] => true
  if s.inFlow || !deeper then s
  else { s.emitAt place token with columns := column :: s.columns }

/-- Ends the block collections that begin to the right of a column; all of them
where no column is given. -/
def closeBlocks (s : Layout) (column : Option Nat) : Layout :=
  let closes (begun : Nat) : Bool := match column with
    | some here => here < begun
    | none => true
  if s.inFlow then s
  else
    let closed := s.columns.takeWhile closes
    { s with
      tokens := List.replicate closed.length Token.blockEnd ++ s.tokens
      count := s.count + closed.length
      columns := s.columns.drop closed.length }

/-- Gives up the possible key of the innermost level; a required one is missing its
colon. -/
def dropKey (s : Layout) : Option Layout :=
  match s.keys with
  | some key :: rest => if key.required then none else some { s with keys := none :: rest }
  | _ => some s

/-- Takes note that the next token may turn out to start a key. -/
def noteKey (s : Layout) : Option Layout :=
  if !s.keyAllowed then some s
  else do
    let s ← s.dropKey
    let key : PossibleKey :=
      { place := s.count
        required := !s.inFlow && s.columns.head? = some s.cursor.column
        index := s.cursor.index
        line := s.cursor.line
        column := s.cursor.column }
    return { s with keys := some key :: s.keys.drop 1 }

/-- Whether a colon would come too late for a key. -/
def isStale (s : Layout) (key : PossibleKey) : Bool :=
  key.line < s.cursor.line || key.index + 1024 < s.cursor.index

/-- Gives up the keys whose colon would come too late. -/
def dropStaleKeys (s : Layout) : Option Layout := do
  let keys ← s.keys.mapM fun key => match key with
    | some k => if s.isStale k then (if k.required then none else some none) else some (some k)
    | none => some none
  return { s with keys }

/-- Moves to the next token over blanks, comments and line breaks. A tab counts as a
blank only where no key may start. -/
def skipSpace : (fuel : Nat) → Layout → Layout
  | 0, s => s
  | fuel + 1, s =>
    let tabs := s.inFlow || !s.keyAllowed
    let c := (s.cursor.span fun d => d = ' ' || (tabs && d = '\t')).2.skipComment
    match c.break? with
    | some (_, line) => skipSpace fuel { s.move line with keyAllowed := s.keyAllowed || !s.inFlow }
    | none => s.move c

/-- Ends all blocks before something that stands outside documents. -/
def leaveDocument (s : Layout) : Option Layout := do
  return (← (s.closeBlocks none).dropKey).allowKey false

/-- Reads a mark between documents. -/
def readMark (s : Layout) (token : Token) : Option Layout := do
  return ((← s.leaveDocument).emit token).skip 3

/-- Reads a directive. -/
def readDirective (s : Layout) : Option Layout := do
  let s ← s.leaveDocument
  let (token, next) ← Token.directive? s.cursor
  return (s.emit token).move next

/-- Reads an opening bracket. -/
def readOpening (s : Layout) (token : Token) : Option Layout := do
  let s ← s.noteKey
  return { (s.emit token).skip 1 with
    keys := none :: s.keys, brackets := s.brackets + 1, keyAllowed := true }

/-- Reads a closing bracket. -/
def readClosing (s : Layout) (token : Token) : Option Layout := do
  let s ← s.dropKey
  let s := if s.inFlow then { s with keys := s.keys.drop 1, brackets := s.brackets - 1 } else s
  return ((s.emit token).skip 1).allowKey false

/-- Reads a comma within brackets. -/
def readComma (s : Layout) : Option Layout := do
  return (((← s.dropKey).emit .flowEntry).skip 1).allowKey true

/-- Reads the dash of an item. -/
def readDash (s : Layout) : Option Layout := do
  if !s.inFlow && !s.keyAllowed then none
  let s := s.openBlock s.cursor.column s.count .blockSequenceStart
  return (((← s.dropKey).emit .blockEntry).skip 1).allowKey true

/-- Reads the question mark of a key. -/
def readQuestion (s : Layout) : Option Layout := do
  if !s.inFlow && !s.keyAllowed then none
  let s := s.openBlock s.cursor.column s.count .blockMappingStart
  return (((← s.dropKey).emit .key).skip 1).allowKey (!s.inFlow)

/-- Reads the colon of a value. What was noted as a possible key is one now. -/
def readColon (s : Layout) : Option Layout := do
  match s.keys with
  | some key :: rest =>
    let s := ({ s with keys := none :: rest }).emitAt key.place .key
    let s := s.openBlock key.column key.place .blockMappingStart
    return ((s.emit .value).skip 1).allowKey false
  | _ =>
    if !s.inFlow && !s.keyAllowed then none
    let s := s.openBlock s.cursor.column s.count .blockMappingStart
    return ((s.emit .value).skip 1).allowKey (!s.inFlow)

/-- Reads an anchor or an alias. -/
def readName (s : Layout) (token : String → Token) : Option Layout := do
  let s ← s.noteKey
  let (name, next) ← Token.name? (s.cursor.advance 1)
  return ((s.emit (token name)).move next).allowKey false

/-- Reads a tag. -/
def readTag (s : Layout) : Option Layout := do
  let s ← s.noteKey
  let (token, next) ← Token.tag? s.inFlow s.cursor
  return ((s.emit token).move next).allowKey false

/-- Reads a block scalar. -/
def readBlock (s : Layout) (style : ScalarStyle) : Option Layout := do
  let s ← s.dropKey
  let (text, next) ← Block.read? (style = .literal) s.columns.head? s.cursor
  return ((s.emit (.scalar style text)).move next).allowKey true

/-- Reads a quoted scalar. -/
def readQuoted (s : Layout) (quote : Quote) (style : ScalarStyle) : Option Layout := do
  let s ← s.noteKey
  let (text, next) ← Quoted.read? quote s.cursor
  return ((s.emit (.scalar style text)).move next).allowKey false

/-- Reads a plain scalar. After a line break a key may start. -/
def readPlain (s : Layout) : Option Layout := do
  let s ← s.noteKey
  let indent := match s.columns with
    | column :: _ => column + 1
    | [] => 0
  let (text, broken, next) ← Plain.read? indent s.inFlow s.cursor
  return ((s.emit (.scalar .plain text)).move next).allowKey broken

/-- The signs with which no plain scalar starts. -/
def isIndicator (c : Char) : Bool :=
  "-?:,[]\x7b\x7d#&*!|>\"%@`".toList.contains c || c = '\x27'

/-- Whether a plain scalar may start with a character that has the given one behind
it. -/
def startsPlain (s : Layout) (c : Char) (second : Option Char) : Bool :=
  !(isBlank c || isIndicator c) ||
    (c = '-' && !(second.map isBlank).getD false) ||
    (!s.inFlow && (c = '?' || c = ':') && !isSpaceOrEnd second)

/-- Reads the token that starts with a character. -/
def readFrom (s : Layout) (c : Char) : Option Layout :=
  let second := s.cursor.second?
  let separate := s.inFlow || isSpaceOrEnd second
  if c = '%' && s.cursor.column = 0 then s.readDirective
  else if s.cursor.atMark "---" then s.readMark .documentStart
  else if s.cursor.atMark "..." then s.readMark .documentEnd
  else if c = '[' then s.readOpening .flowSequenceStart
  else if c = '\x7b' then s.readOpening .flowMappingStart
  else if c = ']' then s.readClosing .flowSequenceEnd
  else if c = '\x7d' then s.readClosing .flowMappingEnd
  else if c = ',' then s.readComma
  else if c = '-' && isSpaceOrEnd second then s.readDash
  else if c = '?' && separate then s.readQuestion
  else if c = ':' && separate then s.readColon
  else if c = '*' then s.readName .reference
  else if c = '&' then s.readName .anchor
  else if c = '!' then s.readTag
  else if c = '|' && !s.inFlow then s.readBlock .literal
  else if c = '>' && !s.inFlow then s.readBlock .folded
  else if c = '\x27' then s.readQuoted .single .singleQuoted
  else if c = '"' then s.readQuoted .double .doubleQuoted
  else if s.startsPlain c second then s.readPlain
  else none

/-- Reads all tokens from here on; each takes at least one character, so that there
are no more than `fuel`. -/
def readAll : (fuel : Nat) → Layout → Option (List Token)
  | 0, _ => none
  | fuel + 1, s => do
    let s ← (skipSpace (fuel + 1) s).dropStaleKeys
    match s.cursor.peek? with
    | none => return (← (s.closeBlocks none).dropKey).tokens.reverse
    | some c => readAll fuel (← (s.closeBlocks (some s.cursor.column)).readFrom c)

/-- A text without the marks of its byte order. -/
def stripMarks (text : List Char) : List Char :=
  let strip : List Char → List Char
    | c :: rest => if c.toNat = 0xfeff then rest else c :: rest
    | [] => []
  strip (strip text)

/-- The tokens of a text, if it is well formed so far. -/
def tokens? (text : String) : Option (List Token) :=
  let chars := stripMarks text.toList
  if chars.all isPrintable then readAll (chars.length + 1) (start chars) else none

end Layout

end ManifestVariables.Yaml
