/-
  Destructure/Proofs/Compile/Compilation.lean
  ===========================================
  **What has come of a text** — the two passes of a compilation run one behind the
  other, and the second only where the first has nothing to report. A text compiles
  exactly if it is read as a pattern that breaks no rule (`compilePattern_eq_ok_iff`).
-/
import Destructure.Compile.Compilation
import Destructure.Proofs.Matcher.Lowering
import Destructure.Proofs.Pattern.Findings

namespace Destructure

/-! ### Reports -/

theorem add_diagnostic (source : String) (v : Violation) (r : Report) :
    r.add (v.diagnostic source r.sourceName) =
      ⟨r.sourceName, r.diagnostics ++ [v.diagnostic source r.sourceName]⟩ := by
  cases v <;> rfl

/-- The report with a diagnostic for each breach. -/
theorem foldl_add_diagnostic (source : String) (vs : List Violation) (r : Report) :
    vs.foldl (fun (q : Report) v => q.add (v.diagnostic source r.sourceName)) r =
      ⟨r.sourceName, r.diagnostics ++ vs.map (Violation.diagnostic source r.sourceName)⟩ := by
  obtain ⟨name, ds⟩ := r
  induction vs generalizing ds with
  | nil => simp
  | cons v vs ih =>
    have hadd := add_diagnostic source v ⟨name, ds⟩
    dsimp only at hadd ih ⊢
    rw [List.foldl_cons, hadd, ih, List.map_cons, List.append_assoc, List.singleton_append]

/-! ### Passes -/

/-- The pass that checks patterns leaves the tree as it is, reports the breaches and
    leaves the names behind. -/
theorem validationPass_run (source : String) (p : Pattern Literal)
    (w : Workspace (List String)) :
    ((validationPass source).run (.tree p)).run.run w =
      (.ok (.tree p),
        { w with
          report := ⟨w.report.sourceName, w.report.diagnostics ++
            p.violations.map (Violation.diagnostic source w.report.sourceName)⟩
          analyses := (validationName, p.names) :: w.analyses }) := by
  rw [← foldl_add_diagnostic]
  rfl

/-- A pipeline behind its first pass: it ends where something is reported, and goes
    on with the other passes where nothing is. -/
theorem runInOrder_of_ok {α β ε : Type} {p : Pass α β ε} {x y : α} {w w' : Workspace β}
    (h : (p.run x).run.run { w with ran := w.ran ++ [p.name] } = (.ok y, w'))
    (ps : List (Pass α β ε)) :
    (Pass.runInOrder (p :: ps) x).run.run w =
      if w'.report.hasErrors then (.ok none, w') else (Pass.runInOrder ps y).run.run w' := by
  -- what comes behind a pass sees its outcome and the workspace that it leaves
  have hstep : (Pass.runInOrder (p :: ps) x).run.run w =
      (fun r : Except ε α × Workspace β => (ExceptT.bindCont (fun y => (do
          if (← get).report.hasErrors then return none
          Pass.runInOrder ps y : PassAction β ε (Option α))) r.1) r.2)
        ((p.run x).run.run { w with ran := w.ran ++ [p.name] }) := rfl
  have hrest : (Pass.runInOrder (p :: ps) x).run.run w =
      ((if w'.report.hasErrors then pure none else Pass.runInOrder ps y :
        PassAction β ε (Option α))).run.run w' := by
    rw [hstep, h]
    rfl
  rw [hrest]
  by_cases herrors : w'.report.hasErrors = true
  · rw [if_pos herrors, if_pos herrors]
    rfl
  · rw [if_neg herrors, if_neg herrors]

theorem loweringPass_run {source : String} {p : Pattern Literal} {m : Matcher}
    (hm : p.toMatcher source = .ok m) (w : Workspace (List String)) :
    ((loweringPass source).run (.tree p)).run.run w = (.ok (.matcher m), w) := by
  simp only [loweringPass, hm]
  rfl

/-- The passes of a compilation run in the order in which they are written. -/
theorem runAll_patternPasses (source : String) (x : Artefact) :
    Pass.runAll circularPasses (patternPasses source) x =
      Pass.runInOrder (patternPasses source) x := by
  rfl

/-- The workspace behind the check of a pattern. -/
def checked (source sourceName : String) (p : Pattern Literal) : Workspace (List String) :=
  ⟨⟨sourceName, p.violations.map (Violation.diagnostic source sourceName)⟩,
    [(validationName, p.names)], [validationName]⟩

/-- A compilation goes as far as the check, and on to the matcher where nothing is
    reported. -/
theorem runAll_tree (source sourceName : String) (p : Pattern Literal) :
    (Pass.runAll circularPasses (patternPasses source) (.tree p)).run.run
        (Workspace.empty sourceName) =
      if (checked source sourceName p).report.hasErrors then
        (.ok none, checked source sourceName p)
      else (Pass.runInOrder [loweringPass source] (.tree p)).run.run
        (checked source sourceName p) := by
  rw [runAll_patternPasses]
  refine runInOrder_of_ok ?_ [loweringPass source]
  rw [validationPass_run]
  rfl

theorem hasErrors_checked (source sourceName : String) (p : Pattern Literal) :
    (checked source sourceName p).report.hasErrors = true ↔ p.violations ≠ [] := by
  simp [checked, Report.hasErrors]

/-! ### Compiling a pattern that has been read -/

/-- The workspace behind both passes. -/
def finished (source sourceName : String) (p : Pattern Literal) : Workspace (List String) :=
  { checked source sourceName p with ran := [validationName, "lowering"] }

/-- The passes run to their end over a pattern that breaks no rule, and hand over its
    matcher. -/
theorem runAll_of_violations_eq_nil {source : String} (sourceName : String)
    {p : Pattern Literal} {m : Matcher} (hp : p.violations = [])
    (hm : p.toMatcher source = .ok m) :
    (Pass.runAll circularPasses (patternPasses source) (.tree p)).run.run
        (Workspace.empty sourceName) =
      (.ok (some (.matcher m)), finished source sourceName p) := by
  have hnone : ¬ (checked source sourceName p).report.hasErrors = true := by
    rw [hasErrors_checked]
    exact fun h => h hp
  have hfinished : ¬ (finished source sourceName p).report.hasErrors = true := hnone
  rw [runAll_tree, if_neg hnone, runInOrder_of_ok (loweringPass_run hm _)]
  exact if_neg hfinished

/-- A pattern that breaks no rule compiles to its matcher, with its names. -/
theorem compileTree_of_violations_eq_nil {source : String} (sourceName : String)
    {p : Pattern Literal} {m : Matcher} (hp : p.violations = [])
    (hm : p.toMatcher source = .ok m) :
    compileTree source sourceName p =
      .ok ⟨some ⟨source, m, p.names, some p⟩, some (.empty sourceName), none, true⟩ := by
  have hreport : (finished source sourceName p).report = .empty sourceName := by
    simp [finished, checked, hp, Report.empty]
  rw [compileTree, runAll_of_violations_eq_nil sourceName hp hm]
  simp only [hreport]
  rfl

/-- A pattern that breaks a rule does not compile, and the report has a diagnostic for
    each breach. -/
theorem compileTree_of_violations_ne_nil (source sourceName : String) {p : Pattern Literal}
    (hp : p.violations ≠ []) :
    compileTree source sourceName p =
      .ok ⟨none, some (checked source sourceName p).report,
        some (validationFailure sourceName (checked source sourceName p).report), false⟩ := by
  have herrors := (hasErrors_checked source sourceName p).mpr hp
  rw [compileTree, runAll_tree, if_pos herrors]

/-! ### Compiling a text -/

/-- A pattern in which no followed splat is found has a matcher. -/
theorem exists_toMatcher_of_no_splatNotLast (source : String) {p : Pattern Literal}
    (h : ¬ ∃ s, .splatNotLast s ∈ p.violations) : ∃ m, p.toMatcher source = .ok m := by
  rw [p.exists_splatNotLast_iff] at h
  apply Pattern.exists_toMatcher source
  intro s hs
  exact h ⟨s, hs⟩

theorem exists_toMatcher_of_violations_eq_nil (source : String) {p : Pattern Literal}
    (hp : p.violations = []) : ∃ m, p.toMatcher source = .ok m := by
  apply exists_toMatcher_of_no_splatNotLast
  rintro ⟨s, hs⟩
  rw [hp] at hs
  cases hs

/-- A text compiles exactly if it is read as a pattern that breaks no rule. -/
theorem compilePattern_eq_ok_iff (source : String) (c : CompiledPattern) :
    compilePattern source = .ok c ↔ ∃ p m, Pattern.parse source = .ok p ∧ p.violations = [] ∧
      p.toMatcher source = .ok m ∧ c = ⟨source, m, p.names, some p⟩ := by
  rw [compilePattern, compile]
  cases hparse : Pattern.parse source with
  | error f =>
    constructor
    · intro h
      cases h
    · rintro ⟨p, m, hp, -⟩
      cases hp
  | ok p =>
    dsimp only
    by_cases hp : p.violations = []
    · obtain ⟨m, hm⟩ := exists_toMatcher_of_violations_eq_nil source hp
      rw [compileTree_of_violations_eq_nil defaultSourceName hp hm]
      constructor
      · intro h
        cases h
        exact ⟨p, m, rfl, hp, hm, rfl⟩
      · rintro ⟨q, n, hq, -, hn, rfl⟩
        cases hq
        rw [hm, Except.ok.injEq] at hn
        subst hn
        rfl
    · rw [compileTree_of_violations_ne_nil source defaultSourceName hp]
      constructor
      · intro h
        cases h
      · rintro ⟨q, n, hq, hnil, -⟩
        cases hq
        exact absurd hnil hp

end Destructure
