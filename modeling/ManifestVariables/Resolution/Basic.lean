import ManifestVariables.ConfigServer.Basic
import ManifestVariables.Ledger.Store
import ManifestVariables.Tree.Replace
import ManifestVariables.Tree.Site

/-!
# Resolving the placeholders of a tree

`Resolution.resolve` replaces every placeholder of a tree by the value of its
variable. All names are checked before the first value is fetched. Each variable is
fetched once, however it is spelled and however often it is used, in the order in
which the variables first appear. Failures that concern single variables are
collected, any other ends the whole. How a value is fetched is left open: the
program asks for values by qualified name.
-/

namespace ManifestVariables

/-- A name that should have been recorded with a version and was not. -/
inductive UnrecordedName where
  /-- A frozen set was to give the version. -/
  | inSet (name deployment : String)
  /-- The frozen set of a consuming deployment was to give the version. -/
  | inConsumer (name deployment : String)
  /-- The set of a providing deployment was to give the version. -/
  | inProvider (name deployment : String)
deriving DecidableEq, Repr

/-- The text shown for an unrecorded name. -/
def UnrecordedName.message : UnrecordedName → String
  | inSet name deployment =>
    s!"Expected variable '{name}' to be already versioned in deployment '{deployment}'"
  | inConsumer name deployment =>
    s!"Variable '{name}' must already be versioned in deployment '{deployment}'"
  | inProvider name deployment =>
    s!"Variable '{name}' must be already versioned in link provider deployment '{deployment}'"

/-- Why a single placeholder has no value. -/
inductive PlaceholderFailure where
  /-- The variable could not be fetched. -/
  | unavailable (text : String)
  /-- The value of the variable has no such part; `parent` is the deepest part there
  is. -/
  | missingKey (base parent key : String)
deriving DecidableEq, Repr

/-- The text shown for a placeholder without value. -/
def PlaceholderFailure.message : PlaceholderFailure → String
  | unavailable text => text
  | missingKey base parent key =>
    s!"Failed to fetch variable '{base}' from config server: Expected parent '{parent}' hash to have key '{key}'"

/-- Why a tree could not be resolved. -/
inductive ResolutionError where
  | name (error : NameError)
  | relativeNames (names : List String)
  | placeholders (failures : List PlaceholderFailure)
  | unrecorded (name : UnrecordedName)
  | transport (error : TransportError)
  | store (error : StoreError)
deriving DecidableEq, Repr

/-- The text shown for a tree that could not be resolved, with one line per
placeholder where several failed. -/
def ResolutionError.message : ResolutionError → String
  | name error => error.message
  | relativeNames found => Name.relativeNamesMessage found
  | placeholders failures =>
    "\n".intercalate (failures.map fun failure => s!"- {failure.message}")
  | unrecorded missing => missing.message
  | transport error => error.message
  | store error => error.message

/-- Why a value was not fetched: a failure to collect, or one that ends the whole
resolution. -/
inductive FetchFailure where
  | reported (text : String)
  | fatal (error : ResolutionError)
deriving DecidableEq, Repr

/-- A failure of the config server to collect where it concerns one variable. -/
def FetchFailure.ofServer : ServerError → FetchFailure
  | .transport error => .fatal (.transport error)
  | other => .reported other.message

namespace Resolution

/-- The interface of fetching: values by qualified name. -/
def Fetching : Interface := ⟨String, fun _ => Except FetchFailure Json⟩

/-- Follows keys from a part of a value that is called `parent`. Only objects have
parts. -/
def descendFrom (base parent : String) : List String → Json → Except PlaceholderFailure Json
  | [], value => .ok value
  | key :: rest, value =>
    match value.get? key with
    | some part => descendFrom base (parent ++ "." ++ key) rest part
    | none => .error (.missingKey base parent key)

/-- The part of a variable's value that keys select. -/
def descend (base : String) (keys : List String) (value : Json) :
    Except PlaceholderFailure Json :=
  descendFrom base base keys value

/-- What has come of the placeholders so far. -/
structure Progress where
  /-- The fetched values; none where fetching failed. -/
  fetched : Keyed String (Option Json)
  failures : List PlaceholderFailure
  /-- The values to put in, with their places. -/
  found : List (Path × Json)

/-- Nothing so far. -/
def Progress.start : Progress := ⟨[], [], []⟩

/-- Settles a placeholder whose variable has been fetched. One without value is
passed over: it was reported when it was fetched. -/
def Progress.settle (progress : Progress) (path : Path) (base : String) (keys : List String)
    (value : Option Json) : Progress :=
  match value with
  | none => progress
  | some value =>
    match descend base keys value with
    | .ok part => { progress with found := progress.found ++ [(path, part)] }
    | .error failure => { progress with failures := progress.failures ++ [failure] }

/-- Takes note of a fetched variable. -/
def Progress.fetch (progress : Progress) (base : String) (value : Option Json) : Progress :=
  { progress with fetched := Keyed.put progress.fetched base value }

/-- Takes note of a variable that could not be fetched. -/
def Progress.report (progress : Progress) (base text : String) : Progress :=
  { progress.fetch base none with failures := progress.failures ++ [.unavailable text] }

/-- Settles placeholders in order, fetching each variable when it is first met. -/
def settleAll (qualify : String → String) :
    List (Path × NamePath) → Progress → Program Fetching (Except ResolutionError Progress)
  | [], progress => .done (.ok progress)
  | (path, name) :: rest, progress =>
    let base := qualify name.base
    match Keyed.get? progress.fetched base with
    | some value => settleAll qualify rest (progress.settle path base name.keys value)
    | none =>
      .ask base fun reply : Except FetchFailure Json =>
        match reply with
        | .ok value =>
          settleAll qualify rest ((progress.fetch base (some value)).settle path base name.keys value)
        | .error (.reported text) => settleAll qualify rest (progress.report base text)
        | .error (.fatal error) => .done (.error error)

/-- The names in the placeholders of some sites, or the first that is malformed. -/
def parseSites : List Site → Except NameError (List (Path × NamePath))
  | [] => .ok []
  | site :: rest =>
    match Placeholder.path site.placeholder with
    | .error e => .error e
    | .ok name =>
      match parseSites rest with
      | .error e => .error e
      | .ok names => .ok ((site.path, name) :: names)

/-- The tree with values put in, the first one first. -/
def substitute (tree : Json) (found : List (Path × Json)) : Json :=
  found.foldl (fun tree entry => Json.replaceAt entry.2 entry.1 tree) tree

/-- Resolves all placeholders of a tree that are not ignored. -/
def resolve (tree : Json) (ignored : List SubtreePattern) (qualify : String → String) :
    Program Fetching (Except ResolutionError Json) :=
  match parseSites (Tree.sites tree ignored) with
  | .error e => .done (.error (.name e))
  | .ok names =>
    (settleAll qualify names Progress.start).andThen fun result =>
      match result with
      | .error error => .done (.error error)
      | .ok progress =>
        if progress.failures.isEmpty then .done (.ok (substitute tree progress.found))
        else .done (.error (.placeholders progress.failures))

end Resolution

end ManifestVariables
