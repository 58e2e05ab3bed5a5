/-
  Destructure/Compile/Compilation.lean
  ====================================
  **Compiling** — a pattern text is read, checked against the rules beyond the
  grammar, and turned into a matcher. The last two are passes of a pipeline, so
  that nothing is made of a pattern that breaks a rule. A compilation holds what
  has come of it: the compiled pattern, or the failure and the report of all that
  is wrong; `compilePattern` has one of the two.

  Mirrors `CompilerDriver.compile`, `CompilationResult`,
  `PatternValidationPass.run` and `MatcherLoweringPass.run` of the program.
-/
import Destructure.Compile.Basic
import Destructure.Pattern.Reader
import Destructure.Pattern.Violation
import Destructure.Pipeline.Run

namespace Destructure

/-! ### Passes -/

/-- What is handed on from pass to pass: a pattern tree, then a matcher. -/
inductive Artefact where
  | tree (p : Pattern Literal)
  | matcher (m : Matcher)

def syntaxCode : String := "E0001"

def SyntaxFault.diagnostic (source sourceName : String) (f : SyntaxFault) : Diagnostic :=
  { message := f.message
    span := some (f.extent.within source)
    code := some syntaxCode
    help := none
    note := if f.expected.isEmpty then none
      else some ("expected one of: " ++ ", ".intercalate (f.expected.map (·.wording)))
    label := none
    sourceName }

/-- A pass over patterns; the analyses are lists of names. -/
abbrev PatternPass := Pass Artefact (List String) Failure

def validationName : String := "validation"

/-- Reports the breaches of a pattern and leaves its names behind. -/
def validationPass (source : String) : PatternPass where
  name := validationName
  requires := []
  run
    | .tree p => do
      modify fun w =>
        let report := p.violations.foldl
          (fun r v => r.add (v.diagnostic source w.report.sourceName)) w.report
        { w.setAnalysis validationName p.names with report }
      return .tree p
    | x => return x

/-- Turns a checked pattern into its matcher. -/
def loweringPass (source : String) : PatternPass where
  name := "lowering"
  requires := [validationName]
  run
    | .tree p => do
      match p.toMatcher source with
      | .ok m => return .matcher m
      | .error f => throw f
    | x => return x

def patternPasses (source : String) : List PatternPass :=
  [validationPass source, loweringPass source]

/-! ### Compilations -/

/-- What has come of a pattern text. -/
structure Compilation where
  pattern : Option CompiledPattern
  report : Option Report
  failure : Option Failure
  success : Bool

namespace Compilation

/-- Whether anything is wrong: something has been reported, or there has been no
    success. -/
def hasErrors (c : Compilation) : Bool :=
  (c.report.map (·.hasErrors)).getD false || !c.success

def errors (c : Compilation) : List String :=
  match c.report with
  | some r => if r.hasErrors then [r.write false] else []
  | none => []

def unexplained : Failure :=
  .pattern .validation
    { message := "pattern compilation failed"
      span := none
      code := some syntaxCode
      help := none
      note := none
      label := none
      sourceName := defaultSourceName }

/-- The compiled pattern of a success; else the failure. -/
def unwrap (c : Compilation) : Except Failure CompiledPattern :=
  match c.success, c.pattern, c.failure with
  | true, some p, _ => .ok p
  | _, _, some f => .error f
  | _, _, none => .error unexplained

end Compilation

def validationCode : String := "E0100"

/-- The failure that stands for a report: its first diagnostic. -/
def validationFailure (sourceName : String) (r : Report) : Failure :=
  match r.diagnostics with
  | d :: _ => .pattern .validation
      { d with code := some ((spoken d.code).getD validationCode), sourceName }
  | [] => .fault .indexOutOfRange

/-- The failure of a pipeline of patterns that cannot be put in order. -/
def circularPasses : Failure := .internal PipelineFault.circular.message "E9999"

/-- Compiles a pattern that has been read. -/
def compileTree (source sourceName : String) (p : Pattern Literal) :
    Except Failure Compilation :=
  let (result, w) := (Pass.runAll circularPasses (patternPasses source) (.tree p)).run.run
    (Workspace.empty sourceName)
  match result with
  | .error f => .error f
  | .ok (some (.matcher m)) =>
    .ok { pattern := some ⟨source, m, (w.analysis? validationName).getD [], some p⟩
          report := some w.report
          failure := none
          success := true }
  | .ok _ =>
    .ok { pattern := none
          report := some w.report
          failure := some (validationFailure sourceName w.report)
          success := false }

/-- Compiles a pattern text. -/
def compile (source sourceName : String) :
    Except Failure Compilation :=
  match Pattern.parse source with
  | .ok p => compileTree source sourceName p
  | .error f =>
    let d := f.diagnostic source sourceName
    .ok { pattern := none
          report := some ((Report.empty sourceName).add d)
          failure := some (.pattern .syntactic d)
          success := false }

/-- The compiled pattern of a text, or why there is none. -/
def compilePattern (source : String) : Except Failure CompiledPattern := do
  (← compile source defaultSourceName).unwrap

end Destructure
