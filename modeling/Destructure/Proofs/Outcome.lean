/-
  Destructure/Proofs/Outcome.lean
  ===============================
  **Outcomes of steps that can fail** — a sequence of two steps succeeds exactly if
  both do. Computations in `Except` are taken apart with these lemmas and not by
  unfolding.
-/

namespace Destructure

variable {ε α β : Type}

@[simp] theorem ok_bind (a : α) (f : α → Except ε β) : (Except.ok a >>= f) = f a := rfl

@[simp] theorem error_bind (e : ε) (f : α → Except ε β) :
    (Except.error e >>= f) = .error e := rfl

@[simp] theorem pure_eq_ok (a : α) : (pure a : Except ε α) = .ok a := rfl

theorem bind_eq_ok_iff {x : Except ε α} {f : α → Except ε β} {b : β} :
    (x >>= f) = .ok b ↔ ∃ a, x = .ok a ∧ f a = .ok b := by
  cases x with
  | error e => simp
  | ok a => simp

/-- What stands behind a step matters for the results of the step only. -/
theorem bind_congr_of_ok {x : Except ε α} {k l : α → Except ε β}
    (h : ∀ a, x = .ok a → k a = l a) : (x >>= k) = (x >>= l) := by
  cases x with
  | error e => rfl
  | ok a => exact h a rfl

theorem eq_error_of_map {r : Except ε α} {f : α → β} {e : ε} (h : r.map f = .error e) :
    r = .error e := by
  cases r with
  | ok a => cases h
  | error e' =>
    cases h
    rfl

theorem ok_of_map {r : Except ε α} {f : α → β} {b : β} (h : r.map f = .ok b) :
    ∃ a, r = .ok a ∧ f a = b := by
  cases r with
  | error e => cases h
  | ok a =>
    cases h
    exact ⟨a, rfl, rfl⟩

theorem toOption_eq_some_iff {x : Except ε α} {a : α} : x.toOption = some a ↔ x = .ok a := by
  cases x with
  | error e => simp [Except.toOption]
  | ok b => simp [Except.toOption]

/-- Two sequences of steps agree as far as a view of their results goes, if their
    first steps agree as far as the second ones look at them. -/
theorem map_bind_congr {γ δ : Type} {x y : Except ε α} {k l : α → Except ε β} {f : α → γ}
    {g : β → δ} (hfirst : x.map f = y.map f)
    (hsecond : ∀ a b, f a = f b → (k a).map g = (l b).map g) :
    (x >>= k).map g = (y >>= l).map g := by
  cases x with
  | error e =>
    cases y with
    | error e' =>
      cases hfirst
      rfl
    | ok b => cases hfirst
  | ok a =>
    cases y with
    | error e => cases hfirst
    | ok b => exact hsecond a b (Except.ok.inj hfirst)

end Destructure
