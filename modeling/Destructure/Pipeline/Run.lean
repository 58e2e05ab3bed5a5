/-
  Destructure/Pipeline/Run.lean
  =============================
  **Pipelines** — passes that hand a result on from one to the next, in the order
  of their requirements. They share a report and the analyses that they leave
  behind under their names. A pipeline stops behind the first pass after which
  the report has errors, and then has no result.

  Mirrors `CompileContext`, `BasePass` and `PassManager.run_all` of the program.
-/
import Destructure.Diagnostic.Report
import Destructure.Pipeline.Order

namespace Destructure

/-- What passes share: the report, the analyses by the name of the pass that made
    them, and the passes that have been run. -/
structure Workspace (β : Type) where
  report : Report
  analyses : List (String × β)
  ran : List String

/-- Why a pipeline cannot be run. -/
inductive PipelineFault where
  | circular
  | unavailable (pass : String)
deriving DecidableEq, Repr

def PipelineFault.message : PipelineFault → String
  | circular => "Circular dependency detected in passes"
  | unavailable pass => "Analysis " ++ pass ++ " not available"

/-- An action on a workspace that can fail; what has been done to the workspace
    by then stays. -/
abbrev PassAction (β ε α : Type) := ExceptT ε (StateM (Workspace β)) α

/-- A pass: a name, the names of the passes that it requires, and what it
    does. -/
structure Pass (α β ε : Type) where
  name : String
  requires : List String
  run : α → PassAction β ε α

namespace Workspace

variable {α β ε : Type}

def empty (sourceName : String) : Workspace β := ⟨.empty sourceName, [], []⟩

def analysis? (w : Workspace β) (pass : String) : Option β := w.analyses.lookup pass

/-- Leaves an analysis behind, in place of an earlier one of the same pass. -/
def setAnalysis (w : Workspace β) (pass : String) (analysis : β) : Workspace β :=
  { w with analyses := (pass, analysis) :: w.analyses }

end Workspace

namespace Pass

variable {α β ε : Type}

/-- Runs passes one behind the other on a result, as long as nothing is
    reported. -/
def runInOrder : List (Pass α β ε) → α → PassAction β ε (Option α)
  | [], x => return some x
  | p :: ps, x => do
    modify fun w => { w with ran := w.ran ++ [p.name] }
    let x ← p.run x
    if (← get).report.hasErrors then return none
    runInOrder ps x

def requirements (ps : List (Pass α β ε)) : List Requirement :=
  ps.map fun p => ⟨p.name, p.requires⟩

/-- Runs passes in the order of their requirements. -/
def runAll (circular : ε) (ps : List (Pass α β ε)) (x : α) : PassAction β ε (Option α) :=
  match Requirement.order? (requirements ps) with
  | none => throw circular
  | some names => runInOrder (names.filterMap fun n => ps.find? (·.name == n)) x

end Pass

end Destructure
