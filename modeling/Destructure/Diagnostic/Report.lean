/-
  Destructure/Diagnostic/Report.lean
  ==================================
  **Reports** — the diagnostics of one pattern text in the order in which they
  were made, all under the name of that text. A report is written as its
  diagnostics, an empty line behind each, and a closing line that counts them.

  Mirrors `ErrorReporter` and `_use_color` of the program.
-/
import Destructure.Diagnostic.Basic

namespace Destructure

/-- Diagnostics collected under one name. -/
structure Report where
  sourceName : String
  diagnostics : List Diagnostic
deriving DecidableEq, Repr

namespace Report

def empty (sourceName : String) : Report := ⟨sourceName, []⟩

/-- One more diagnostic, which takes the name of the report. -/
def add (r : Report) (d : Diagnostic) : Report :=
  { r with diagnostics := r.diagnostics ++ [{ d with sourceName := r.sourceName }] }

def hasErrors (r : Report) : Bool := !r.diagnostics.isEmpty

def summary (r : Report) : List Fragment :=
  let n := r.diagnostics.length
  [⟨[.bold, .red], "error"⟩,
   ⟨[.bold], ": aborting due to " ++ toString n ++ " previous error" ++ if n = 1 then "" else "s"⟩]

def write (colour : Bool) (r : Report) : String :=
  "\n\n".intercalate
    (r.diagnostics.map (Diagnostic.write colour) ++ [writeLines colour [r.summary]])

/-- What is printed of a report: nothing where nothing has been reported. -/
def printed (colour : Bool) (r : Report) : String :=
  if r.hasErrors then r.write colour ++ "\n" else ""

end Report

/-! ### Whether to use colour -/

def colourRefusals : List String := ["0", "false", "no", "never"]

/-- Colour is used unless a general refusal is given, whatever it says, or the
    program's own setting is one of the words against it. -/
def useColour (refusal setting : Option String) : Bool :=
  (spoken refusal).isNone &&
    !colourRefusals.contains (String.ofList ((setting.getD "").toList.map Char.toLower))

end Destructure
