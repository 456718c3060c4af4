import ManifestVariables.Text

/-!
# What a command leaves behind

A command that succeeds prints its result. One that fails prints what it found
first, and then the failure with its cause.
-/

namespace ManifestVariables.CommandLine

/-- Why a command failed. -/
structure Failure where
  message : String
  /-- What lies behind the failure. -/
  cause : Option String := none
  /-- What was found before, a line each. -/
  findings : List String := []
deriving DecidableEq, Repr

/-- A text with every line moved to the right. -/
def indented (text : String) : String :=
  "\n".intercalate ((Text.pieces '\n' text.toList).map fun line => "    " ++ String.ofList line)

/-- The text shown for a failure. -/
def Failure.text (failure : Failure) : String :=
  let cause := match failure.cause with
    | some cause => "\n\nCaused by:\n" ++ indented cause
    | none => ""
  String.join (failure.findings.map (· ++ "\n")) ++ "Error: " ++ failure.message ++ cause ++ "\n"

/-- What a command leaves behind: what it printed as its result and as messages,
and its exit status. -/
structure Report where
  output : String
  messages : String
  status : Nat
deriving DecidableEq, Repr

namespace Report

/-- A command that succeeded. -/
def success (output : String) : Report := ⟨output, "", 0⟩

/-- A command that failed. -/
def failure (failure : Failure) : Report := ⟨"", failure.text, 1⟩

/-- A command line that was wrong. -/
def misuse (usage : String) : Report := ⟨"", usage, 2⟩

/-- A command that crashed. -/
def crash (message : String) : Report := ⟨"", message ++ "\n", 101⟩

/-- The report with a text printed before the rest of the result. -/
def headed (heading : String) (report : Report) : Report :=
  { report with output := heading ++ report.output }

/-- What an attempt leaves behind. -/
def ofAttempt : Except Report String → Report
  | .ok output => success output
  | .error report => report

end Report

end ManifestVariables.CommandLine
