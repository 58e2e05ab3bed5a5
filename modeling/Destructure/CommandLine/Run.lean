/-
  Destructure/CommandLine/Run.lean
  ================================
  **The program** — matches a value written as JSON against a pattern and writes
  the bindings as JSON. The exit status is zero for a match, one if there is none
  or one of the two cannot be read, and two for wrong arguments.

  Mirrors `main` of the program. Debug logging is left out.
-/
import Destructure.CommandLine.Arguments
import Destructure.Compile.Compilation
import Destructure.Json.Reader
import Destructure.Json.Writer

namespace Destructure

/-- What a run of the program leaves behind. -/
structure Outcome where
  exit : Nat
  stdout : String
  stderr : String
deriving DecidableEq, Repr

def programName : String := "casematch"

def usageLine : String := "usage: " ++ programName ++ " [-h] [-q] [-v] pattern value\n"

def helpText : String :=
  usageLine ++ "\nMatch a JSON value against a pattern and print the bindings.\n\n" ++
    "positional arguments:\n" ++
    "  pattern        Pattern text, e.g. '[head, *tail]'\n" ++
    "  value          Candidate value as JSON, e.g. '[1, 2, 3]'\n\n" ++
    "options:\n" ++
    "  -h, --help     show this help message and exit\n" ++
    "  -q, --quiet    Only set the exit status\n" ++
    "  -v, --verbose  Debug logging to stderr\n"

def complaint (message : String) : String := programName ++ ": error: " ++ message ++ "\n"

def runMatch (quiet : Bool) (p : CompiledPattern) (v : Value) : Except Failure Outcome := do
  match ← p.match? v with
  | some bs => return ⟨0, if quiet then "" else bs.json ++ "\n", ""⟩
  | none =>
    return ⟨1, "", if quiet then "" else programName ++ ": no match\n" ++ p.caret ++ "\n"⟩

def runPattern (colour quiet : Bool) (pattern : String) (v : Value) : Except Failure Outcome := do
  let c ← compile pattern defaultSourceName
  match c.success, c.pattern with
  | true, some p => runMatch quiet p v
  | _, _ => return ⟨1, "", (c.report.map (·.printed colour)).getD ""⟩

/-- Runs the program on a pattern text and a value text. The value is read
    first. -/
def runTexts (colour quiet : Bool) (pattern value : String) : Except Failure Outcome :=
  match readJson value.toList with
  | .ok v => runPattern colour quiet pattern v
  | .error .tooManyDigits => .error (.fault .badValue)
  | .error (.malformed cause offset) =>
    .ok ⟨1, "", complaint ("value is not valid JSON: " ++ cause.report value offset)⟩

def runProgram (colour : Bool) (args : List String) : Except Failure Outcome :=
  match readArguments args with
  | .error fault => .ok ⟨2, "", usageLine ++ complaint fault.message⟩
  | .ok a =>
    if a.flags.contains .help then .ok ⟨0, helpText, ""⟩
    else match a.positionals with
      | [some pattern, some value] => runTexts colour (a.flags.contains .quiet) pattern value
      | _ => .error (.fault .wrongType)

end Destructure
