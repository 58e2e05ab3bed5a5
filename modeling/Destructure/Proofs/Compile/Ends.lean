/-
  Destructure/Proofs/Compile/Ends.lean
  ====================================
  **The two ends of a compilation** — whatever the text, a compilation comes to an
  end, and all that can be asked of it agrees: a success has a pattern and nothing to
  report, a refusal has no pattern, a report, and the first diagnostic of the report as
  its failure. The diagnostic of a breach keeps its code and its name on the way into
  the failure, so the two are the same in every field.
-/
import Destructure.Proofs.Compile.Compilation

namespace Destructure

/-! ### The two shapes -/

/-- All views of a compilation that has the pattern `c`. -/
structure Compilation.Succeeded (r : Compilation) (sourceName : String)
    (c : CompiledPattern) : Prop where
  success : r.success = true
  pattern : r.pattern = some c
  report : r.report = some ⟨sourceName, []⟩
  failure : r.failure = none
  hasErrors : r.hasErrors = false
  errors : r.errors = []
  unwrap : r.unwrap = .ok c

/-- All views of a compilation that has been refused in a phase, with what is reported
    first and what is reported behind it. -/
structure Compilation.Refused (r : Compilation) (sourceName : String) (phase : Phase)
    (first : Diagnostic) (others : List Diagnostic) : Prop where
  success : r.success = false
  pattern : r.pattern = none
  report : r.report = some ⟨sourceName, first :: others⟩
  named : ∀ d ∈ first :: others, d.sourceName = sourceName
  failure : r.failure = some (.pattern phase first)
  hasErrors : r.hasErrors = true
  errors : ∃ text, r.errors = [text]
  unwrap : r.unwrap = .error (.pattern phase first)

/-- A compilation with a pattern and an empty report is a success in every view. -/
theorem Compilation.succeeded (sourceName : String) (c : CompiledPattern) :
    Compilation.Succeeded ⟨some c, some ⟨sourceName, []⟩, none, true⟩ sourceName c :=
  ⟨rfl, rfl, rfl, rfl, rfl, rfl, rfl⟩

/-- A compilation without a pattern that fails with what it reports first is a refusal
    in every view. -/
theorem Compilation.refused {sourceName : String} {phase : Phase} {first : Diagnostic}
    {others : List Diagnostic} (hnamed : ∀ d ∈ first :: others, d.sourceName = sourceName) :
    Compilation.Refused
      ⟨none, some ⟨sourceName, first :: others⟩, some (.pattern phase first), false⟩
      sourceName phase first others :=
  ⟨rfl, rfl, rfl, hnamed, rfl, rfl, ⟨_, rfl⟩, rfl⟩

/-! ### What is reported -/

theorem Violation.sourceName_diagnostic (source sourceName : String) (v : Violation) :
    (v.diagnostic source sourceName).sourceName = sourceName := by
  cases v <;> rfl

/-- The diagnostic of a breach has a code, so the failure does not need one of its
    own. -/
theorem validationFailure_diagnostic (source sourceName : String) (v : Violation)
    (ds : List Diagnostic) :
    validationFailure sourceName ⟨sourceName, v.diagnostic source sourceName :: ds⟩ =
      .pattern .validation (v.diagnostic source sourceName) := by
  cases v <;> rfl

/-- What is wrong with a text that is not read is reported alone. -/
theorem compile_of_syntaxFault {source : String} (sourceName : String) {f : SyntaxFault}
    (hparse : Pattern.parse source = .error f) :
    ∃ r first, compile source sourceName = .ok r ∧
      r.Refused sourceName .syntactic first [] := by
  refine ⟨_, f.diagnostic source sourceName, ?_, Compilation.refused ?_⟩
  · rw [compile, hparse]
    rfl
  · intro d hd
    rw [List.mem_singleton.mp hd]
    rfl

theorem compile_of_parse {source : String} (sourceName : String) {p : Pattern Literal}
    (hparse : Pattern.parse source = .ok p) :
    compile source sourceName = compileTree source sourceName p := by
  rw [compile, hparse]

/-- A pattern that breaks a rule is refused for the first breach. -/
theorem compileTree_refused (source sourceName : String) {p : Pattern Literal}
    (hp : p.violations ≠ []) :
    ∃ r first others, compileTree source sourceName p = .ok r ∧
      r.Refused sourceName .validation first others := by
  obtain ⟨v, vs, hviolations⟩ := List.exists_cons_of_ne_nil hp
  have hreport : (checked source sourceName p).report =
      ⟨sourceName, v.diagnostic source sourceName ::
        vs.map (Violation.diagnostic source sourceName)⟩ := by
    rw [checked, hviolations, List.map_cons]
  rw [compileTree_of_violations_ne_nil source sourceName hp, hreport,
    validationFailure_diagnostic]
  refine ⟨_, _, _, rfl, Compilation.refused ?_⟩
  rw [← List.map_cons]
  intro d hd
  obtain ⟨w, -, rfl⟩ := List.mem_map.mp hd
  exact w.sourceName_diagnostic source sourceName

/-! ### Both ends -/

/-- The passes run over a tree to their end: they hand over the matcher of the pattern,
    and its names are there to be asked for. -/
def CompiledPattern.MadeFrom (c : CompiledPattern) (sourceName : String)
    (p : Pattern Literal) : Prop :=
  c.tree = some p ∧ ∃ w, (Pass.runAll circularPasses (patternPasses c.source) (.tree p)).run.run
      (Workspace.empty sourceName) = (.ok (some (.matcher c.matcher)), w) ∧
    w.analysis? validationName = some c.names

/-- A pattern that breaks no rule is compiled. -/
theorem compileTree_succeeded (source sourceName : String) {p : Pattern Literal}
    (hp : p.violations = []) :
    ∃ r c, compileTree source sourceName p = .ok r ∧ c.source = source ∧
      c.MadeFrom sourceName p ∧ r.Succeeded sourceName c := by
  obtain ⟨m, hm⟩ := exists_toMatcher_of_violations_eq_nil source hp
  refine ⟨_, ⟨source, m, p.names, some p⟩, compileTree_of_violations_eq_nil sourceName hp hm,
    rfl, ⟨rfl, finished source sourceName p, ?_, rfl⟩, Compilation.succeeded sourceName _⟩
  exact runAll_of_violations_eq_nil sourceName hp hm

/-- Whatever the text, its compilation has one of the two shapes. -/
theorem compile_ends (source sourceName : String) :
    ∃ r, compile source sourceName = .ok r ∧
      ((∃ c, r.Succeeded sourceName c) ∨
        ∃ phase first others, r.Refused sourceName phase first others) := by
  cases hparse : Pattern.parse source with
  | error f =>
    obtain ⟨r, first, hr, hrefused⟩ := compile_of_syntaxFault sourceName hparse
    exact ⟨r, hr, Or.inr ⟨_, first, _, hrefused⟩⟩
  | ok p =>
    rw [compile_of_parse sourceName hparse]
    by_cases hp : p.violations = []
    · obtain ⟨r, c, hr, -, -, hsucceeded⟩ := compileTree_succeeded source sourceName hp
      exact ⟨r, hr, Or.inl ⟨c, hsucceeded⟩⟩
    · obtain ⟨r, first, others, hr, hrefused⟩ := compileTree_refused source sourceName hp
      exact ⟨r, hr, Or.inr ⟨_, first, others, hrefused⟩⟩

/-- A compilation always comes to an end, in one of two shapes. Either it has a pattern,
    made by passes that have all run, and nothing is reported; or it has no pattern, and
    its failure is what is reported first, under the name of the text. A text that is not
    read has one thing reported about it. -/
theorem compile_settles (source sourceName : String) :
    ∃ r, compile source sourceName = .ok r ∧
      ((∃ p c, Pattern.parse source = .ok p ∧ c.source = source ∧ c.MadeFrom sourceName p ∧
          r.Succeeded sourceName c) ∨
        (∃ f first, Pattern.parse source = .error f ∧
          r.Refused sourceName .syntactic first []) ∨
        ∃ p first others, Pattern.parse source = .ok p ∧
          r.Refused sourceName .validation first others) := by
  cases hparse : Pattern.parse source with
  | error f =>
    obtain ⟨r, first, hr, hrefused⟩ := compile_of_syntaxFault sourceName hparse
    exact ⟨r, hr, Or.inr (Or.inl ⟨f, first, rfl, hrefused⟩)⟩
  | ok p =>
    rw [compile_of_parse sourceName hparse]
    by_cases hp : p.violations = []
    · obtain ⟨r, c, hr, hsource, hmade, hsucceeded⟩ := compileTree_succeeded source sourceName hp
      exact ⟨r, hr, Or.inl ⟨p, c, rfl, hsource, hmade, hsucceeded⟩⟩
    · obtain ⟨r, first, others, hr, hrefused⟩ := compileTree_refused source sourceName hp
      exact ⟨r, hr, Or.inr (Or.inr ⟨p, first, others, rfl, hrefused⟩)⟩

end Destructure
