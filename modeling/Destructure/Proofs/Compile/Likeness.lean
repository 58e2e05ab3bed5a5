/-
  Destructure/Proofs/Compile/Likeness.lean
  ========================================
  **Texts that say the same** — a matcher keeps all of its pattern but the places: two
  texts compile to equal matchers exactly if the patterns that they are read as are alike.
  Equal matchers match alike, as long as nothing is rounded or counted in comparing: a
  number that is written as an integer in one text and as floating in the other can tell an
  element of an integer array from the number in the first text and not in the second, and
  is equal to a duration in the first text only.
-/
import Mathlib
import Destructure.Proofs.Compile.Literals
import Destructure.Proofs.Compile.Rendering
import Destructure.Proofs.Compile.Views
import Destructure.Proofs.Matcher.Congruence

namespace Destructure

/-! ### Matchers of texts -/

theorem readNumber_held {cs : List Char} {v : Literal} (h : readNumber cs = .ok v) : v.Held := by
  unfold readNumber at h
  split at h
  · split at h
    · next x hx =>
      cases h
      exact readFloat?_holds hx
    · cases h
  · split at h
    · next n hn =>
      cases h
      exact isWritableInteger_of_readInteger hn
    · cases h

theorem Lexeme.held_of_value {l : Lexeme} {v : Literal} (h : l.value = .ok v) : v.Held := by
  obtain ⟨kind, cs⟩ := l
  cases kind with
  | integer | float => exact readNumber_held h
  | string =>
    simp only [Lexeme.value, readString] at h
    split at h
    · cases h
    · split at h
      · cases h
        trivial
      · cases h

/-- Nothing stands at the literals of a pattern that is read but what a text can have. -/
theorem held_of_parse {source : String} {p : Pattern Literal}
    (hp : Pattern.parse source = .ok p) : ∀ l ∈ p.outline.literals, l.Held := by
  obtain ⟨t, -, hvalue⟩ := (Pattern.parse_eq_ok_iff source p.outline).mp ⟨p, hp, rfl⟩
  intro l hl
  obtain ⟨w, -, hw⟩ := t.mem_literals_value? hvalue l hl
  exact w.held_of_value hw

/-- A compiled pattern has the matcher of its tree, which asks for literals only. -/
theorem matcher_of_compilePattern {source : String} {c : CompiledPattern}
    (hc : compilePattern source = .ok c) :
    ∃ p, Pattern.parse source = .ok p ∧ c.tree = some p ∧ p.toMatcher source = .ok c.matcher ∧
      c.matcher.AllLiterals Literal.Held := by
  obtain ⟨p, m, hp, -, hm, rfl⟩ := (compilePattern_eq_ok_iff source c).mp hc
  exact ⟨p, hp, rfl, hm, p.allLiterals hm (held_of_parse hp)⟩

/-! ### Equal matchers -/

section Pair

variable {s₁ s₂ : String} {c₁ c₂ : CompiledPattern}

theorem alike_of_equals (h₁ : compilePattern s₁ = .ok c₁) (h₂ : compilePattern s₂ = .ok c₂)
    (heq : c₁.matcher.equals c₂.matcher = .ok true) : c₁.matcher.Alike c₂.matcher := by
  obtain ⟨p₁, -, -, -, hheld₁⟩ := matcher_of_compilePattern h₁
  obtain ⟨p₂, -, -, -, hheld₂⟩ := matcher_of_compilePattern h₂
  obtain ⟨b, hb, hiff⟩ := Matcher.decides_equals hheld₁ hheld₂
  rw [heq, Except.ok.injEq] at hb
  exact hiff.mp hb.symm

/-- The matchers of two texts can be compared, and are equal exactly if the patterns that
    the texts are read as are alike: they have the same shape, and the same names, equal
    texts and equal numbers in the same places. -/
theorem matchers_equal_iff_alike (h₁ : compilePattern s₁ = .ok c₁)
    (h₂ : compilePattern s₂ = .ok c₂) :
    ∃ p₁ p₂, Pattern.parse s₁ = .ok p₁ ∧ c₁.tree = some p₁ ∧
      Pattern.parse s₂ = .ok p₂ ∧ c₂.tree = some p₂ ∧
      ∃ b, c₁.matcher.equals c₂.matcher = .ok b ∧ (b = true ↔ p₁.Alike p₂) := by
  obtain ⟨p₁, hp₁, htree₁, hm₁, hheld₁⟩ := matcher_of_compilePattern h₁
  obtain ⟨p₂, hp₂, htree₂, hm₂, hheld₂⟩ := matcher_of_compilePattern h₂
  refine ⟨p₁, p₂, hp₁, htree₁, hp₂, htree₂, ?_⟩
  obtain ⟨b, hb, hiff⟩ := Matcher.decides_equals hheld₁ hheld₂
  exact ⟨b, hb, hiff.trans (p₁.alike_toMatcher_iff p₂ hm₁ hm₂)⟩

/-- Numbers that are written differently make no difference, a splat in the place of an
    item does. -/
theorem matchers_equal_iff_alike_arrays :
    (∃ c₁ c₂, compilePattern "[0, *_]" = .ok c₁ ∧ compilePattern " [0.0,*_]" = .ok c₂ ∧
      c₁.matcher.equals c₂.matcher = .ok true) ∧
    ∃ c₁ c₂, compilePattern "[a]" = .ok c₁ ∧ compilePattern "[*a]" = .ok c₂ ∧
      c₁.matcher.equals c₂.matcher = .ok false := by
  have hnumber : ∃ c₁ c₂ p₁ p₂, compilePattern "[0, *_]" = .ok c₁ ∧
      compilePattern " [0.0,*_]" = .ok c₂ ∧ c₁.tree = some p₁ ∧ c₂.tree = some p₂ ∧
      p₁.Alike p₂ := by
    refine ⟨_, _, _, _, by cbv, by cbv, rfl, rfl, ?_⟩
    have hzero : (Literal.integer 0).Alike (.float (.finite false 0 (-1074))) :=
      .number rfl (by decide +kernel) (by decide)
    exact And.intro hzero rfl
  have hsplat : ∃ c₁ c₂ p₁ p₂, compilePattern "[a]" = .ok c₁ ∧
      compilePattern "[*a]" = .ok c₂ ∧ c₁.tree = some p₁ ∧ c₂.tree = some p₂ ∧
      ¬ p₁.Alike p₂ := by
    refine ⟨_, _, _, _, by cbv, by cbv, rfl, rfl, ?_⟩
    exact id
  obtain ⟨c₁, c₂, p₁, p₂, hc₁, hc₂, ht₁, ht₂, halike⟩ := hnumber
  obtain ⟨d₁, d₂, q₁, q₂, hd₁, hd₂, hu₁, hu₂, hnot⟩ := hsplat
  obtain ⟨p₁', p₂', -, ht₁', -, ht₂', b, hb, hiff⟩ := matchers_equal_iff_alike hc₁ hc₂
  obtain ⟨q₁', q₂', -, hu₁', -, hu₂', b', hb', hiff'⟩ := matchers_equal_iff_alike hd₁ hd₂
  cases ht₁.symm.trans ht₁'
  cases ht₂.symm.trans ht₂'
  cases hu₁.symm.trans hu₁'
  cases hu₂.symm.trans hu₂'
  refine ⟨⟨c₁, c₂, hc₁, hc₂, ?_⟩, d₁, d₂, hd₁, hd₂, ?_⟩
  · rw [hb, hiff.mpr halike]
  · rw [hb', Bool.eq_false_iff.mpr fun h => hnot (hiff'.mp h)]

/-- Equal matchers, asked about one value. They answer alike if no element that they come
    to compare is rounded to the number that is asked for and no duration is counted by it,
    and capture alike where both are defined. An element that is rounded is refused by the
    text that has the number as an integer, and accepted in its place by the text that has
    it as floating; with a duration that is counted it is the other way round. -/
theorem equal_matchers_match_alike (h₁ : compilePattern s₁ = .ok c₁)
    (h₂ : compilePattern s₂ = .ok c₂) (heq : c₁.matcher.equals c₂.matcher = .ok true)
    (v : Value) :
    ((∀ a b x, c₁.matcher.Compares c₂.matcher v a b x → ¬ a.Differs b x) →
      c₁.definedAt v = c₂.definedAt v) ∧
    (c₁.definedAt v = .ok true → c₂.definedAt v = .ok true →
      ∃ bs, c₁.bindings v = .ok bs ∧ c₂.bindings v = .ok bs) ∧
    ∀ a b x, c₁.matcher.Compares c₂.matcher v a b x →
      (a.Blurs b x ∨ b.Blurs a x →
        ∃ type n, x = .number (.elementInteger type n) ∧ 2 ^ 53 < n.natAbs) ∧
      (a.Counts b x ∨ b.Counts a x → ∃ unit n, x = .duration unit (some n)) ∧
      (a.Blurs b x → a.accepts x = .ok false ∧ b.accepts x = .ok true ∧
        c₁.definedAt v = .ok false) ∧
      (b.Blurs a x → b.accepts x = .ok false ∧ a.accepts x = .ok true ∧
        c₂.definedAt v = .ok false) ∧
      (a.Counts b x → a.accepts x = .ok true ∧ b.accepts x = .ok false ∧
        c₂.definedAt v = .ok false) ∧
      (b.Counts a x → b.accepts x = .ok true ∧ a.accepts x = .ok false ∧
        c₁.definedAt v = .ok false) := by
  have halike := alike_of_equals h₁ h₂ heq
  obtain ⟨-, -, -, -, hheld₁⟩ := matcher_of_compilePattern h₁
  obtain ⟨-, -, -, -, hheld₂⟩ := matcher_of_compilePattern h₂
  refine ⟨?_, ?_, ?_⟩
  · intro hsame
    refine halike.definedAt fun a b x h => ?_
    exact (h.alike halike).accepts (h.literal_left hheld₁) (h.symm.literal_left hheld₂)
      (hsame a b x h)
  · intro hdefined₁ hdefined₂
    obtain ⟨bs, -, hbs⟩ := exists_match_of_definedAt h₁ hdefined₁
    refine ⟨bs, hbs, ?_⟩
    rw [CompiledPattern.bindings, hdefined₁] at hbs
    rw [CompiledPattern.bindings, hdefined₂, ← hbs]
    exact (halike.bindings hdefined₁).symm
  · intro a b x h
    have hab := h.alike halike
    refine ⟨?_, ?_, h.blurs hab, h.symm.blurs hab.symm, h.symm.counts, h.counts⟩
    · rintro (hblurs | hblurs)
      · exact hblurs.large
      · exact hblurs.large
    · rintro (hcounts | hcounts)
      · exact hcounts.isDuration
      · exact hcounts.isDuration

/-- The two ways to write a number, and the element that is next to it. -/
theorem equal_matchers_match_alike_rounded :
    ∃ c₁ c₂, compilePattern "9007199254740992" = .ok c₁ ∧
      compilePattern "9007199254740992.0" = .ok c₂ ∧
      c₁.matcher.equals c₂.matcher = .ok true ∧
      c₁.definedAt (.integer 9007199254740992) = c₂.definedAt (.integer 9007199254740992) ∧
      c₁.definedAt (.number (.elementInteger .int64 9007199254740993)) = .ok false ∧
      c₂.definedAt (.number (.elementInteger .int64 9007199254740993)) = .ok true := by
  let k : Literal := .integer 9007199254740992
  let y : Literal := .float (.finite false 4503599627370496 1)
  have h₁ := compilePattern_literal "9007199254740992" ⟨0, 16⟩ k
    (l := ⟨.integer, "9007199254740992".toList⟩) (by cbv) (by decide +kernel)
  have h₂ := compilePattern_literal "9007199254740992.0" ⟨0, 18⟩ y
    (l := ⟨.float, "9007199254740992.0".toList⟩) (by cbv) (by decide +kernel)
  have heq : k.equals y = true := by decide +kernel
  have hblurs : k.Blurs y (.number (.elementInteger .int64 9007199254740993)) :=
    ⟨by decide, by decide +kernel⟩
  obtain ⟨hsame, -, -⟩ := equal_matchers_match_alike h₁ h₂ (congrArg Except.ok heq)
    (.integer 9007199254740992)
  obtain ⟨-, -, hblurred⟩ := equal_matchers_match_alike h₁ h₂ (congrArg Except.ok heq)
    (.number (.elementInteger .int64 9007199254740993))
  obtain ⟨-, haccepted, hrefused⟩ := (hblurred k y _ .literal).2.2.1 hblurs
  refine ⟨_, _, h₁, h₂, congrArg Except.ok heq, hsame ?_, hrefused, haccepted⟩
  intro a b x h
  cases h
  rintro (h | h | h | h) <;> cases h

end Pair

end Destructure
