import ManifestVariables.Http.Request
import ManifestVariables.Program

/-!
# What the machine is asked for

Files are read and written, requests are sent, and time passes. A program that
needs any of that asks for it through this interface.
-/

namespace ManifestVariables

/-- Why a file cannot be used. -/
inductive FileError where
  | missing
  | notDirectory
  | isDirectory
  | denied
  /-- The file is not UTF-8. -/
  | notText
  | other (detail : String)
deriving DecidableEq, Repr

/-- The text shown for a file that cannot be used. -/
def FileError.message : FileError → String
  | missing => "No such file or directory (os error 2)"
  | notDirectory => "Not a directory (os error 20)"
  | isDirectory => "Is a directory (os error 21)"
  | denied => "Permission denied (os error 13)"
  | notText => "stream did not contain valid UTF-8"
  | other detail => detail

/-- What a path leads to. -/
inductive FileKind where
  | file
  | directory
deriving DecidableEq, Repr

namespace Machine

/-- A question to the machine. -/
inductive Need where
  | read (path : String)
  | write (path text : String)
  /-- What a path leads to, if anything. -/
  | kind (path : String)
  | exchange (request : Http.Request)
  /-- The present instant in nanoseconds. -/
  | now
  /-- To wait for some milliseconds. -/
  | sleep (milliseconds : Nat)

/-- What each question is answered with. -/
def Need.Reply : Need → Type
  | read _ => Except FileError String
  | write _ _ => Except FileError Unit
  | kind _ => Option FileKind
  | exchange _ => Except Http.NetworkError Response
  | now => Nat
  | sleep _ => Unit

/-- The interface of the machine. -/
def Needs : Interface := ⟨Need, Need.Reply⟩

/-- A program that uses the machine. -/
abbrev Action (α : Type) := Program Needs α

/-- The text of a file. -/
def read (path : String) : Action (Except FileError String) := .ask (.read path : Need) .done

/-- Puts a text into a file. -/
def write (path text : String) : Action (Except FileError Unit) :=
  .ask (.write path text : Need) .done

/-- Whether a path leads to anything. -/
def isPresent (path : String) : Action Bool :=
  .ask (.kind path : Need) fun kind : Option FileKind => .done kind.isSome

/-- Whether a path leads to a file. -/
def isFile (path : String) : Action Bool :=
  .ask (.kind path : Need) fun kind : Option FileKind => .done (kind = some .file)

end Machine

end ManifestVariables
