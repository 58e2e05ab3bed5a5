/-
  Destructure/Proofs/Compile/Rendering.lean
  =========================================
  **Texts of one pattern** — the texts that are read are the renderings of outlines
  whose literals have values, and what is read is the pattern of those values. Two
  renderings of one outline differ in their blanks only; they are read as patterns
  that differ in their places only, and compile to equal matchers.
-/
import Mathlib
import Destructure.Proofs.Compile.Compilation
import Destructure.Proofs.Matcher.Equality

namespace Destructure

/-- The text is the words of the outline in their order, with blanks before, between
    and behind them. -/
def Outline.Renders (t : Outline Lexeme) (source : String) : Prop :=
  t.Wellspelled ∧ Spaced (t.words.map (·.2)) source.toList

/-- What is read from a text are the values of the outline that the text renders. -/
theorem Pattern.parse_eq_ok_iff (source : String) (o : Outline Literal) :
    (∃ p, Pattern.parse source = .ok p ∧ p.outline = o) ↔
      ∃ t : Outline Lexeme, t.Renders source ∧ t.value? = some o := by
  constructor
  · rintro ⟨p, hparse, rfl⟩
    obtain ⟨form, hform, htraverse⟩ := bind_eq_ok_iff.mp hparse
    refine ⟨form.outline, (readForm_eq_ok_iff source.toList form.outline).mp ⟨form, hform, rfl⟩, ?_⟩
    rw [← form.outline_traverse, htraverse]
    rfl
  · rintro ⟨t, hrenders, hvalue⟩
    obtain ⟨form, hform, rfl⟩ := (readForm_eq_ok_iff source.toList t).mpr hrenders
    rw [← form.outline_traverse, Option.map_eq_some_iff] at hvalue
    obtain ⟨p, hp, rfl⟩ := hvalue
    refine ⟨p, ?_, rfl⟩
    rw [Pattern.parse, hform, ok_bind]
    cases htraverse : form.traverse Lexeme.valueAt with
    | error f =>
      rw [htraverse] at hp
      cases hp
    | ok q =>
      rw [htraverse] at hp
      cases hp
      rfl

/-- A text that renders an outline has the values of its literals. -/
theorem Outline.Renders.value {t : Outline Lexeme} {source : String} (h : t.Renders source)
    {p : Pattern Literal} (hp : Pattern.parse source = .ok p) : t.value? = some p.outline := by
  obtain ⟨form, hform, htraverse⟩ := bind_eq_ok_iff.mp hp
  obtain ⟨form', hform', rfl⟩ := (readForm_eq_ok_iff source.toList t).mpr h
  rw [hform, Except.ok.injEq] at hform'
  subst hform'
  rw [← form.outline_traverse, htraverse]
  rfl

theorem unplaced_eq_of_outline_eq {p q : Pattern Literal} (h : p.outline = q.outline) :
    p.unplaced = q.unplaced := by
  rw [← p.build_outline, ← q.build_outline, h]

/-- Two renderings of one outline are read alike. -/
theorem Outline.Renders.parse_alike {t : Outline Lexeme} {s₁ s₂ : String} (h₁ : t.Renders s₁)
    (h₂ : t.Renders s₂) {p₁ : Pattern Literal} (hp₁ : Pattern.parse s₁ = .ok p₁) :
    ∃ p₂, Pattern.parse s₂ = .ok p₂ ∧ p₂.unplaced = p₁.unplaced := by
  have hvalue := h₁.value hp₁
  obtain ⟨p₂, hp₂, houtline⟩ := (Pattern.parse_eq_ok_iff s₂ p₁.outline).mpr ⟨t, h₂, hvalue⟩
  exact ⟨p₂, hp₂, unplaced_eq_of_outline_eq houtline⟩

/-- Two renderings of one outline compile alike. -/
theorem Outline.Renders.compile_alike {t : Outline Lexeme} {s₁ s₂ : String} (h₁ : t.Renders s₁)
    (h₂ : t.Renders s₂) {c₁ : CompiledPattern} (hc₁ : compilePattern s₁ = .ok c₁) :
    ∃ c₂, compilePattern s₂ = .ok c₂ ∧ c₂.names = c₁.names ∧
      c₁.matcher.equals c₂.matcher = .ok true := by
  obtain ⟨p₁, m₁, hp₁, hviolations, hm₁, rfl⟩ := (compilePattern_eq_ok_iff s₁ c₁).mp hc₁
  obtain ⟨p₂, hp₂, hunplaced⟩ := h₁.parse_alike h₂ hp₁
  have hviolations₂ := Pattern.violations_eq_nil_of_unplaced_eq hunplaced.symm hviolations
  have hself := h₁.1.equals_self (h₁.value hp₁)
  obtain ⟨m₂, hm₂, hequals⟩ := Pattern.equals_of_unplaced_eq hunplaced.symm hself hm₁
  refine ⟨⟨s₂, m₂, p₂.names, some p₂⟩, ?_, ?_, hequals⟩
  · exact (compilePattern_eq_ok_iff s₂ _).mpr ⟨p₂, m₂, hp₂, hviolations₂, hm₂, rfl⟩
  · dsimp only
    rw [p₂.names_eq_of_nodup (p₂.violations_eq_nil_iff.mp hviolations₂).2,
      p₁.names_eq_of_nodup (p₁.violations_eq_nil_iff.mp hviolations).2,
      Pattern.texts_of_unplaced_eq hunplaced]

/-- A text is read exactly if it renders an outline whose literals have values, and
    then as the pattern of these values. Renderings of one outline are read as
    patterns that are equal up to their places, and compile to patterns with the same
    names and equal matchers. -/
theorem texts_are_renderings :
    (∀ (source : String) (o : Outline Literal),
      (∃ p, Pattern.parse source = .ok p ∧ p.unplaced = o.build) ↔
        ∃ t : Outline Lexeme, t.Renders source ∧ t.value? = some o) ∧
    ∀ (t : Outline Lexeme) (s₁ s₂ : String), t.Renders s₁ → t.Renders s₂ →
      (∀ p₁, Pattern.parse s₁ = .ok p₁ →
        ∃ p₂, Pattern.parse s₂ = .ok p₂ ∧ p₂.unplaced = p₁.unplaced) ∧
      ∀ c₁, compilePattern s₁ = .ok c₁ →
        ∃ c₂, compilePattern s₂ = .ok c₂ ∧ c₂.names = c₁.names ∧
          c₁.matcher.equals c₂.matcher = .ok true := by
  refine ⟨?_, ?_⟩
  · intro source o
    rw [← Pattern.parse_eq_ok_iff]
    simp only [Pattern.unplaced_eq_build_iff]
  · intro t s₁ s₂ h₁ h₂
    exact ⟨fun p₁ hp₁ => h₁.parse_alike h₂ hp₁, fun c₁ hc₁ => h₁.compile_alike h₂ hc₁⟩

/-- One outline in two texts: blanks can stand wherever a word ends. -/
theorem texts_are_renderings_blanks :
    ∃ t : Outline Lexeme, t.Renders "[a,*_]" ∧ t.Renders " [ a , *_ ]\n" ∧
      (∃ p, Pattern.parse "[a,*_]" = .ok p ∧
        p.unplaced = (Outline.array [.pattern (.name "a"), .splat none]).build) ∧
      ∃ c, compilePattern " [ a , *_ ]\n" = .ok c ∧ c.names = ["a"] := by
  let t : Outline Lexeme := .array [.pattern (.name "a"), .splat none]
  have hwell : t.Wellspelled := by
    refine ⟨?_, trivial, trivial⟩
    exact Language.mem_mul.mpr ⟨['a'], ⟨'a', by decide, rfl⟩, [], Language.nil_mem_kstar _, rfl⟩
  have hnone : Blanks [] := fun c hc => by cases hc
  have hspace : Blanks [' '] := fun c hc => by
    rw [List.mem_singleton.mp hc]
    rfl
  have hnewline : Blanks ['\n'] := fun c hc => by
    rw [List.mem_singleton.mp hc]
    rfl
  have h₁ : t.Renders "[a,*_]" :=
    ⟨hwell, .word hnone (.word hnone (.word hnone (.word hnone (.word hnone (.word hnone
      (.done hnone))))))⟩
  have h₂ : t.Renders " [ a , *_ ]\n" :=
    ⟨hwell, .word hspace (.word hspace (.word hspace (.word hspace (.word hnone (.word hspace
      (.done hnewline))))))⟩
  have hc : ∃ c, compilePattern "[a,*_]" = .ok c ∧ c.names = ["a"] := ⟨_, by cbv, rfl⟩
  obtain ⟨c₁, hc₁, hnames⟩ := hc
  obtain ⟨c₂, hc₂, hsame, -⟩ := (texts_are_renderings.2 t _ _ h₁ h₂).2 c₁ hc₁
  exact ⟨t, h₁, h₂, (texts_are_renderings.1 _ _).mpr ⟨t, h₁, rfl⟩, c₂, hc₂, by rw [hsame, hnames]⟩

end Destructure
