import ManifestVariables.Http.Host

/-!
# URLs

`Url.parse` reads an absolute URL the lenient way of web browsers: blanks around
it and line breaks within it are dropped, a backslash of a web URL is a slash, and
dot segments of a path are resolved. A URL whose path does not begin with a slash
cannot carry further segments. `Url.extend` appends segments, each escaped so that
it stays one segment.
-/

namespace ManifestVariables

/-- The path of a URL. -/
inductive UrlPath where
  /-- A path without a slash at its start. -/
  | rootless (text : List Char)
  /-- The segments behind each slash. -/
  | segments (segments : List (List Char))
deriving DecidableEq, Repr

/-- A URL, its parts escaped. -/
structure Url where
  scheme : String
  username : String
  password : Option String
  host : Option Host
  port : Option Nat
  path : UrlPath
  query : Option String
  fragment : Option String
deriving DecidableEq, Repr

namespace Url

/-- The port that a scheme implies. -/
def defaultPort? : String → Option Nat
  | "http" => some 80
  | "https" => some 443
  | "ws" => some 80
  | "wss" => some 443
  | "ftp" => some 21
  | _ => none

/-- Whether a scheme always has a host and a path. -/
def isSpecial (scheme : String) : Bool := (defaultPort? scheme).isSome

/-- A slash of either kind. -/
def isSlash (c : Char) : Bool := c = '/' || c = '\\'

/-- Whether a character is dropped wherever it stands: a tab or a line break. -/
def isLineBreak (c : Char) : Bool := ['\t', '\n', '\r'].contains c

/-- The text without blanks around it and without tabs and line breaks. -/
def clean (text : List Char) : List Char :=
  let blank (c : Char) : Bool := c.toNat ≤ 0x20
  let trimmed := ((text.dropWhile blank).reverse.dropWhile blank).reverse
  trimmed.filter fun c => !isLineBreak c

/-- The scheme in lower case and what follows its colon. -/
def scheme? (text : List Char) : Option (String × List Char) :=
  let isPart (c : Char) : Bool := c.isAlphanum || ['+', '-', '.'].contains c
  match text with
  | first :: _ =>
    match text.dropWhile isPart with
    | ':' :: rest =>
      if first.isAlpha then
        some (String.ofList ((text.takeWhile isPart).map Char.toLower), rest)
      else none
    | _ => none
  | [] => none

/-! ## Paths -/

/-- A segment that means the one it stands in. -/
def isHere (segment : List Char) : Bool :=
  [".", "%2e"].contains (String.ofList (segment.map Char.toLower))

/-- A segment that means the one above. -/
def isAbove (segment : List Char) : Bool :=
  ["..", ".%2e", "%2e.", "%2e%2e"].contains (String.ofList (segment.map Char.toLower))

/-- Appends a segment; a dot segment at the end of a path leaves an empty one. -/
def place (path : List (List Char)) (segment : List Char) : List (List Char) :=
  if isAbove segment then path.dropLast ++ [[]]
  else if isHere segment then path ++ [[]]
  else path ++ [segment]

/-- Resolves the dot segments of a path behind what is resolved already. -/
def resolve (path : List (List Char)) : List (List Char) → List (List Char)
  | [] => path
  | [segment] => place path segment
  | segment :: rest =>
    if isAbove segment then resolve path.dropLast rest
    else if isHere segment then resolve path rest
    else resolve (path ++ [segment]) rest

/-- The path that a text behind the host stands for. -/
def readPath (special : Bool) (text : List Char) : UrlPath :=
  let slashes := if special then text.map fun c => if isSlash c then '/' else c else text
  match slashes with
  | [] => .segments (if special then [[]] else [])
  | '/' :: rest =>
    .segments (resolve [] ((Text.pieces '/' rest).map (Percent.encode Percent.inPath)))
  | rest => .segments (resolve [] ((Text.pieces '/' rest).map (Percent.encode Percent.inPath)))

/-! ## Reading -/

/-- The part up to the query or the fragment, the query, and the fragment. -/
def splitTail (special : Bool) (text : List Char) :
    List Char × Option String × Option String :=
  let path := text.takeWhile fun c => c ≠ '?' && c ≠ '#'
  let behind := text.dropWhile fun c => c ≠ '?' && c ≠ '#'
  let fragment : List Char → Option String
    | '#' :: rest => some (String.ofList (Percent.encode Percent.inFragment rest))
    | _ => none
  match behind with
  | '?' :: rest =>
    let escaped (c : Char) : Bool := Percent.inQuery c && (special || c ≠ '\x27')
    (path, some (String.ofList (Percent.encode escaped (rest.takeWhile (· ≠ '#')))),
      fragment (rest.dropWhile (· ≠ '#')))
  | behind => (path, none, fragment behind)

/-- The name and the password before an at sign. -/
def readUser (text : List Char) : String × Option String :=
  let escape (part : List Char) : String :=
    String.ofList (Percent.encode Percent.inUserInfo part)
  let name := text.takeWhile (· ≠ ':')
  match text.dropWhile (· ≠ ':') with
  | _ :: c :: rest => (escape name, some (escape (c :: rest)))
  | _ => (escape name, none)

/-- The host and the text behind its colon, if there is one; a colon in brackets
belongs to the host. -/
def splitPort (inBrackets : Bool) : List Char → List Char × Option (List Char)
  | [] => ([], none)
  | c :: rest =>
    if c = ':' ∧ !inBrackets then ([], some rest)
    else
      let (host, port) := splitPort (c = '[' || (inBrackets && c ≠ ']')) rest
      (c :: host, port)

/-- Reads a port. The one that the scheme implies is left out. -/
def readPort (scheme : String) (digits : Option (List Char)) : Except UrlError (Option Nat) :=
  match digits with
  | none => .ok none
  | some [] => .ok none
  | some digits =>
    match Host.number? 10 digits with
    | some port =>
      if 65535 < port then .error .port
      else .ok (if defaultPort? scheme = some port then none else some port)
    | none => .error .port

/-- Reads what follows the slashes before a host. -/
def readAuthority (scheme : String) (text : List Char) : Except UrlError Url := do
  let special := isSpecial scheme
  let ends (c : Char) : Bool := c = '/' || c = '?' || c = '#' || (special && c = '\\')
  let authority := text.takeWhile fun c => !ends c
  let (path, query, fragment) := splitTail special (text.dropWhile fun c => !ends c)
  let (before, behind) := Text.splitLast '@' authority
  let (username, password) := readUser before.dropLast
  let (hostText, portText) := splitPort false behind
  if hostText.isEmpty && (special || !before.dropLast.isEmpty || portText.isSome) then
    throw .emptyHost
  let host ← if special then Host.parse hostText else Host.parseUnknown hostText
  let port ← readPort scheme portText
  return { scheme, username, password, host := some host, port,
           path := readPath special path, query, fragment }

/-- Reads what follows the scheme of a file. -/
def readFile (text : List Char) : Except UrlError Url := do
  let (beginning, query, fragment) := splitTail true text
  match beginning.map fun c => if isSlash c then '/' else c with
  | '/' :: '/' :: rest =>
    let name := rest.takeWhile (· ≠ '/')
    let host ← if name.isEmpty then pure none else (Host.parse name).map some
    return ⟨"file", "", none, host, none, readPath true (rest.dropWhile (· ≠ '/')), query, fragment⟩
  | path => return ⟨"file", "", none, none, none, readPath true path, query, fragment⟩

/-- Reads an absolute URL. -/
def parse (text : List Char) : Except UrlError Url :=
  match scheme? (clean text) with
  | none => .error .noScheme
  | some (scheme, rest) =>
    if scheme = "file" then readFile rest
    else if isSpecial scheme then readAuthority scheme (rest.dropWhile isSlash)
    else match rest with
      | '/' :: '/' :: rest => readAuthority scheme rest
      | rest =>
        let (beginning, query, fragment) := splitTail false rest
        let path := match beginning with
          | '/' :: _ => readPath false beginning
          | _ => .rootless (Percent.encode Percent.isControl beginning)
        .ok ⟨scheme, "", none, none, none, path, query, fragment⟩

/-! ## Appending segments -/

/-- A segment without an empty one that ends the path. -/
def popEmpty (path : List (List Char)) : List (List Char) :=
  if 1 < path.length ∧ path.getLast? = some [] then path.dropLast else path

/-- Appends one segment. Dots alone name no segment; the only segment of a path is
replaced if it is empty. -/
def append (path : List (List Char)) (segment : List Char) : List (List Char) :=
  if segment = ['.'] ∨ segment = ['.', '.'] then path
  else
    let kept := segment.filter fun c => !isLineBreak c
    place (if path = [[]] then [] else path) (Percent.encode Percent.inSegment kept)

/-- The URL with segments appended to its path, if it can carry any. -/
def extend? (url : Url) (segments : List (List Char)) : Option Url :=
  match url.path with
  | .rootless _ => none
  | .segments path => some { url with path := .segments (segments.foldl append (popEmpty path)) }

/-! ## Writing -/

/-- The text of a path. -/
def pathText : UrlPath → List Char
  | .rootless text => text
  | .segments segments => segments.flatMap fun segment => '/' :: segment

/-- The path and the query, as a request asks for them. -/
def target (url : Url) : String :=
  String.ofList (pathText url.path) ++ match url.query with
    | some query => "?" ++ query
    | none => ""

/-- Writes a URL. -/
def text (url : Url) : String :=
  let user := match url.password with
    | some password => url.username ++ ":" ++ password ++ "@"
    | none => if url.username.isEmpty then "" else url.username ++ "@"
  let authority := match url.host with
    | some host =>
      "//" ++ user ++ host.text ++ match url.port with
        | some port => ":" ++ toString port
        | none => ""
    | none => ""
  let fragment := match url.fragment with
    | some fragment => "#" ++ fragment
    | none => ""
  url.scheme ++ ":" ++ authority ++ url.target ++ fragment

end Url

end ManifestVariables
