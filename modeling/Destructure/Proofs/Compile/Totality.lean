/-
  Destructure/Proofs/Compile/Totality.lean
  ========================================
  **Where matching has an answer** — a mismatch of any kind is an answer, so whether a
  compiled pattern is defined at a value can be told of nearly every value. Two overflows
  are left: of a sequence with more elements than can be counted, where an array is asked
  for, and of a floating-point element, where an integer that no double can hold is.
-/
import Mathlib
import Destructure.Proofs.Compile.Likeness
import Destructure.Proofs.Compile.Literals
import Destructure.Proofs.Matcher.Overflow

namespace Destructure

/-! ### Integers -/

/-- Digits by themselves are the pattern of the number that they write. -/
theorem compilePattern_digits {ds : List Char} (hne : ds ≠ [])
    (hdigits : ∀ c ∈ ds, isDecimalDigit c = true) (hlength : ds.length ≤ integerDigitLimit) :
    ∃ c p, compilePattern (String.ofList ds) = .ok c ∧ c.tree = some p ∧
      p.outline = .literal (.integer (digitsValue ds)) := by
  obtain ⟨values, hvalues⟩ := exists_hasDigits hdigits
  have hsigned : SignedDigits false values ds := ⟨hvalues.ne_nil_iff.mp hne, ds, hvalues, rfl⟩
  have hlexeme : ds ∈ Terminal.integer.lexemes := mem_integerLexemes.mpr ⟨false, values, hsigned⟩
  have hread : readNumber ds = .ok (.integer (digitsValue ds)) := by
    rw [hsigned.readNumber, ← hvalues.length_eq, if_neg (Nat.not_lt.mpr hlength),
      hvalues.digitsValue]
    rfl
  exact ⟨_, _, Lexeme.compilePattern_text (l := ⟨.integer, ds⟩) hlexeme hread, rfl, rfl⟩

/-! ### Answers -/

/-- Of every value it can be told whether a compiled pattern is defined at it, and it is
    where the outline has a meaning; but where too long a sequence or too large a literal
    is asked for, there is an overflow, whatever else the pattern would find. -/
theorem defined_or_overflow (source : String) (c : CompiledPattern) (v : Value)
    (hc : compilePattern source = .ok c) (hv : v.WellFormed) :
    ∃ p, Pattern.parse source = .ok p ∧ c.tree = some p ∧
      ((p.outline.Uncountable v ∨ p.outline.Oversized v) → c.definedAt v = .error .overflow) ∧
      (¬ (p.outline.Uncountable v ∨ p.outline.Oversized v) →
        c.definedAt v = .ok (p.outline.capture? v).isSome) := by
  obtain ⟨p, m, hp, -, hm, rfl⟩ := (compilePattern_eq_ok_iff source c).mp hc
  refine ⟨p, hp, rfl, ?_⟩
  rcases p.definedAt_cases hm (held_of_parse hp) hv with ⟨hfault, herror⟩ | ⟨hnone, hok⟩
  · exact ⟨fun _ => herror, fun hnone => absurd hfault hnone⟩
  · exact ⟨fun hfault => absurd hfault hnone, fun _ => hok⟩

/-- No double can hold a one and 309 zeros: such an integer has no answer beside a
    floating-point element, unless that is of the widest type, and differs from the plain
    infinity. -/
theorem defined_or_overflow_power :
    ∃ c, compilePattern (String.ofList ('1' :: List.replicate 309 '0')) = .ok c ∧
      c.definedAt (.number (.elementFloat .float64 (.finite false 1 0))) = .error .overflow ∧
      c.definedAt (.number (.elementFloat .longdouble (.finite false 1 0))) = .ok false ∧
      c.definedAt (.number (.float (.infinite false))) = .ok false := by
  have hdigits : ∀ c ∈ '1' :: List.replicate 309 '0', isDecimalDigit c = true := by
    intro c hc
    rcases List.mem_cons.mp hc with rfl | hc
    · decide
    · rw [List.eq_of_mem_replicate hc]
      decide
  have hlength : ('1' :: List.replicate 309 '0').length ≤ integerDigitLimit := by
    rw [List.length_cons, List.length_replicate]
    decide
  have hvalue : 2 ^ 1024 ≤ digitsValue ('1' :: List.replicate 309 '0') + 2 ^ 970 := by
    decide +kernel
  have hroom : (Literal.integer (digitsValue ('1' :: List.replicate 309 '0'))).admits
      (.number (.elementFloat .longdouble (.finite false 1 0))) = false := by
    decide +kernel
  have hne : '1' :: List.replicate 309 '0' ≠ [] := List.cons_ne_nil _ _
  generalize '1' :: List.replicate 309 '0' = ds at *
  obtain ⟨c, p, hc, htree, houtline⟩ := compilePattern_digits hne hdigits hlength
  have hdefined : ∀ v : Value, v.WellFormed →
      ((p.outline.Uncountable v ∨ p.outline.Oversized v) → c.definedAt v = .error .overflow) ∧
      (¬ (p.outline.Uncountable v ∨ p.outline.Oversized v) →
        c.definedAt v = .ok (p.outline.capture? v).isSome) := by
    intro v hv
    obtain ⟨q, -, hq, hcases⟩ := defined_or_overflow _ c v hc hv
    rw [htree, Option.some.injEq] at hq
    subst hq
    exact hcases
  rw [houtline] at hdefined
  refine ⟨c, hc, ?_, ?_, ?_⟩
  · apply (hdefined (.number (.elementFloat .float64 (.finite false 1 0))) trivial).1
    exact Or.inr ⟨_, .float64, .finite false 1 0, .self _ _, FloatType.noConfusion, hvalue⟩
  · rw [(hdefined (.number (.elementFloat .longdouble (.finite false 1 0))) trivial).2,
      Outline.capture?, hroom]
    · rfl
    · rintro (⟨es, x, hasks, -⟩ | ⟨n, type, x, hasks, htype, -⟩)
      · cases hasks
      · cases hasks
        exact htype rfl
  · apply (hdefined (.number (.float (.infinite false))) trivial).2
    rintro (⟨es, x, hasks, -⟩ | ⟨n, type, x, hasks, -⟩) <;> cases hasks

end Destructure
