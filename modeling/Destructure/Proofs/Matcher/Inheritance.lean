/-
  Destructure/Proofs/Matcher/Inheritance.lean
  ===========================================
  **What a pattern looks at** — matching a value, a pattern is asked for of the value
  and of elements of elements of it, and captures these or suffixes of them. So what
  passes from a value to its elements and its suffixes holds of all that is asked for and
  of all that is captured.
-/
import Destructure.Proofs.Matcher.Reference

namespace Destructure

-- in a mutual block the variables count as unused although the proofs rest on them
set_option linter.unusedSectionVars false

variable {P : Value → Prop}
  (helement : ∀ {v x : Value} {i : Nat}, P v → v.elementAt? i = some x → P x)

section Asked

include helement

mutual

/-- What passes to elements holds of all that is asked for. -/
theorem Outline.asks_inherits (o : Outline Literal) {q : Outline Literal} {v x : Value}
    (hasks : o.Asks v q x) (hv : P v) : P x := by
  cases o with
  | array es =>
    cases hasks with
    | self => exact hv
    | array _ _ heach => exact eachAsks_inherits es heach hv
  | _ =>
    cases hasks
    exact hv

theorem eachAsks_inherits (es : List (Entry Literal)) {q : Outline Literal} {v x : Value}
    {i : Nat} (hasks : EachAsks es v i q x) (hv : P v) : P x := by
  cases es with
  | nil => cases hasks
  | cons e es =>
    cases e with
    | splat s => cases hasks
    | pattern o =>
      cases hasks with
      | here hy _ hasks => exact o.asks_inherits hasks (helement hv hy)
      | later _ _ hasks => exact eachAsks_inherits es hasks hv

end

end Asked

section Captured

variable (hsuffix : ∀ {v w : Value} {i : Nat}, P v → v.isSequence = true →
  v.suffix i = .ok w → P w)

include helement hsuffix

mutual

/-- What passes to elements and to suffixes holds of all that is captured. -/
theorem Outline.capture?_inherits (o : Outline Literal) {v : Value} (hv : P v)
    {bs : Bindings} (hbs : o.capture? v = some bs) : ∀ b ∈ bs, P b.2 := by
  cases o with
  | literal l =>
    rw [Outline.capture?] at hbs
    split at hbs
    · cases hbs
      intro b hb
      cases hb
    · cases hbs
  | name s =>
    cases hbs
    intro b hb
    rw [List.mem_singleton.mp hb]
    exact hv
  | array es =>
    rw [Outline.capture?] at hbs
    split at hbs
    · next hfits =>
      rw [Bool.and_eq_true] at hfits
      exact captureEach_inherits es hv hfits.1 hbs
    · cases hbs

theorem captureEach_inherits (es : List (Entry Literal)) {v : Value} (hv : P v)
    (hsequence : v.isSequence = true) {i : Nat} {bs : Bindings}
    (hbs : captureEach es v i = some bs) : ∀ b ∈ bs, P b.2 := by
  cases es with
  | nil =>
    cases hbs
    intro b hb
    cases hb
  | cons e es =>
    cases e with
    | pattern o =>
      simp only [captureEach, Option.bind_eq_bind, Option.bind_eq_some_iff] at hbs
      obtain ⟨x, hx, cs, hcs, ds, hds, hbs⟩ := hbs
      cases hbs
      intro b hb
      rcases List.mem_append.mp hb with hb | hb
      · exact o.capture?_inherits (helement hv hx) hcs b hb
      · exact captureEach_inherits es hv hsequence hds b hb
    | splat s =>
      cases s with
      | none => exact captureEach_inherits es hv hsequence hbs
      | some s =>
        simp only [captureEach, Option.bind_eq_bind, Option.bind_eq_some_iff] at hbs
        obtain ⟨w, hw, ds, hds, hbs⟩ := hbs
        cases hbs
        intro b hb
        rcases List.mem_cons.mp hb with rfl | hb
        · exact hsuffix hv hsequence (toOption_eq_some_iff.mp hw)
        · exact captureEach_inherits es hv hsequence hds b hb

end

end Captured

end Destructure
