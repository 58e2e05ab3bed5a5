/-
  Destructure/Proofs/Compile/Meaning.lean
  =======================================
  **Matching a value** — a compiled pattern does with a value what its text says, read
  as a flat list of items at each depth. Two things can come in between, both faults
  of a value and not of the pattern: a comparison with a literal that has no answer,
  and a sequence with more elements than can be counted. A range can be that long.
-/
import Mathlib
import Destructure.Proofs.Compile.Compilation
import Destructure.Proofs.Matcher.Simulation

namespace Destructure

/-- Where every literal that is asked for can be compared, a compiled pattern gives the
    bindings that its outline means, and nothing where it means nothing; but where an
    array is asked for of a sequence with more elements than can be counted, it fails. -/
theorem match_means_outline (source : String) (c : CompiledPattern) (v : Value)
    (hc : compilePattern source = .ok c) (hv : v.WellFormed) :
    ∃ p, Pattern.parse source = .ok p ∧ c.tree = some p ∧
      (p.outline.Comparable v →
        (p.outline.Uncountable v → c.match? v = .error (.fault .overflow)) ∧
        (¬ p.outline.Uncountable v → c.match? v = .ok (p.outline.capture? v))) := by
  obtain ⟨p, m, hp, hnil, hm, rfl⟩ := (compilePattern_eq_ok_iff source c).mp hc
  refine ⟨p, hp, rfl, ?_⟩
  intro hcomparable
  have hnodup : m.names.Nodup := by
    rw [p.names_toMatcher hm]
    exact (p.violations_eq_nil_iff.mp hnil).2
  rcases p.simulates hm hv hcomparable with ⟨hlong, herror⟩ | ⟨hshort, hdefined, hcaptured⟩
  · refine ⟨?_, fun hshort => absurd hlong hshort⟩
    intro _
    rw [CompiledPattern.match?, CompiledPattern.definedAt, herror]
    rfl
  · refine ⟨fun hlong => absurd hlong hshort, ?_⟩
    intro _
    rw [CompiledPattern.match?, CompiledPattern.definedAt, hdefined]
    cases hcapture : p.outline.capture? v with
    | none => rfl
    | some bs =>
      have hbindings := hcaptured bs hcapture hnodup
      simp only [orFault, Option.isSome_some, ok_bind, if_true, hbindings]
      rfl

/-- No array is the empty one of a range that is too long to be counted, and of a
    shorter range it is one exactly if that has no elements. -/
theorem match_means_outline_empty :
    ∃ c, compilePattern "[]" = .ok c ∧
      c.match? (.range 0 9223372036854775808 1) = .error (.fault .overflow) ∧
      c.match? (.range 0 3 1) = .ok none ∧ c.match? (.range 0 0 1) = .ok (some []) := by
  have hread : ∃ c p, compilePattern "[]" = .ok c ∧ Pattern.parse "[]" = .ok p ∧
      p.outline = .array [] := ⟨_, _, by cbv, by cbv, rfl⟩
  obtain ⟨c, p, hc, hp, houtline⟩ := hread
  have hcomparable : ∀ v, (Outline.array []).Comparable v := by
    intro v l x hasks
    cases hasks with
    | array _ _ hasks => cases hasks
  have hmatch : ∀ v : Value, v.WellFormed →
      ((Outline.array []).Uncountable v → c.match? v = .error (.fault .overflow)) ∧
      (¬ (Outline.array []).Uncountable v → c.match? v = .ok ((Outline.array []).capture? v)) := by
    intro v hv
    obtain ⟨q, hq, -, hmeans⟩ := match_means_outline "[]" c v hc hv
    rw [hp, Except.ok.injEq] at hq
    subst hq
    rw [houtline] at hmeans
    exact hmeans (hcomparable v)
  have hcountable : ∀ v : Value, v.length ≤ Value.countLimit →
      ¬ (Outline.array []).Uncountable v := by
    rintro v hlength ⟨es, x, hasks, -, hlong⟩
    cases hasks with
    | self => exact absurd hlong (Nat.not_lt.mpr hlength)
    | array _ _ hasks => cases hasks
  refine ⟨c, hc, ?_, ?_, ?_⟩
  · apply (hmatch (.range 0 9223372036854775808 1) trivial).1
    exact ⟨[], _, .self _ _, rfl, by decide⟩
  · exact (hmatch (.range 0 3 1) trivial).2 (hcountable _ (by decide))
  · exact (hmatch (.range 0 0 1) trivial).2 (hcountable _ (by decide))

end Destructure
