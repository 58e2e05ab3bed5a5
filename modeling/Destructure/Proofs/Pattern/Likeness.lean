/-
  Destructure/Proofs/Pattern/Likeness.lean
  ========================================
  **Patterns that say the same** — two patterns are alike if their trees have the same
  shape, with the same names, equal texts and equal numbers in corresponding places; how
  a number is written and where anything stands does not count. A splat is no plain item,
  `*_` is no splat with a name, and an array inside another one is not spread out in it:
  each form of node is like its own kind only.
-/
import Mathlib
import Destructure.Matcher.Basic
import Destructure.Proofs.Pattern.Outline

namespace Destructure

/-! ### Literals -/

/-- What a literal of a number stands for. -/
def Literal.quantity? (l : Literal) : Option Quantity := l.number?.map Number.quantity

/-- The same text, or two numbers that stand for the same. -/
inductive Literal.Alike : Literal → Literal → Prop
  | text (s : String) : Alike (.text s) (.text s)
  | number {a b : Literal} {q : Quantity} :
      a.quantity? = some q → b.quantity? = some q → q ≠ .nan → Alike a b

theorem Quantity.equal_eq_true_iff {p q : Quantity} : p.equal q = true ↔ p = q ∧ p ≠ .nan := by
  cases p <;> cases q <;> simp [Quantity.equal]

namespace Literal

variable {a b : Literal}

theorem alike_number_iff {p q : Quantity} (ha : a.quantity? = some p)
    (hb : b.quantity? = some q) : a.Alike b ↔ p = q ∧ p ≠ .nan := by
  constructor
  · intro h
    cases h with
    | text s => cases ha
    | number ha' hb' hnan =>
      rw [ha, Option.some.injEq] at ha'
      rw [hb, Option.some.injEq] at hb'
      subst ha' hb'
      exact ⟨rfl, hnan⟩
  · rintro ⟨rfl, hnan⟩
    exact .number ha hb hnan

theorem Alike.symm (h : a.Alike b) : b.Alike a := by
  cases h with
  | text s => exact .text s
  | number ha hb hnan => exact .number hb ha hnan

theorem equals_number {p q : Quantity} (ha : a.quantity? = some p) (hb : b.quantity? = some q) :
    a.equals b = p.equal q := by
  cases a with
  | text s => cases ha
  | integer n | float x =>
    cases b with
    | text s => cases hb
    | integer n' | float y =>
      cases ha
      cases hb
      rfl

/-- A text is like no number. -/
theorem not_alike_of_quantity? {s : String} {q : Quantity} (ha : a.quantity? = some q) :
    ¬ a.Alike (.text s) ∧ ¬ (text s).Alike a := by
  constructor
  · intro h
    cases h with
    | text s => cases ha
    | number _ hs _ => cases hs
  · intro h
    cases h with
    | text s => cases ha
    | number hs _ _ => cases hs

/-- Literals are equal exactly if they are alike. -/
theorem equals_eq_true_iff : a.equals b = true ↔ a.Alike b := by
  cases a with
  | text s =>
    cases b with
    | text t =>
      rw [equals, beq_iff_eq]
      constructor
      · rintro rfl
        exact .text s
      · intro h
        cases h with
        | text s => rfl
        | number hs _ _ => cases hs
    | integer n | float y => exact iff_of_false Bool.false_ne_true (not_alike_of_quantity? rfl).2
  | integer n | float x =>
    cases b with
    | text t => exact iff_of_false Bool.false_ne_true (not_alike_of_quantity? rfl).1
    | integer n' | float y =>
      rw [equals_number rfl rfl, alike_number_iff rfl rfl, Quantity.equal_eq_true_iff]

end Literal

/-! ### Patterns -/

mutual

/-- Whether two patterns say the same, wherever they stand. -/
def Pattern.Alike : Pattern Literal → Pattern Literal → Prop
  | .literal _ a, .literal _ b => a.Alike b
  | .name m, .name n => m.text = n.text
  | .empty _, .empty _ => True
  | .array _ es, .array _ fs => es.Alike fs
  | _, _ => False
termination_by structural p => p

def Elements.Alike : Elements Literal → Elements Literal → Prop
  | .one _ i, .one _ j => i.Alike j
  | .more _ i c, .more _ j d => i.Alike j ∧ c.Alike d
  | _, _ => False
termination_by structural p => p

def Item.Alike : Item Literal → Item Literal → Prop
  | .pattern p, .pattern q => p.Alike q
  | .splat s, .splat t => s.name? = t.name?
  | _, _ => False
termination_by structural p => p

def Chain.Alike : Chain Literal → Chain Literal → Prop
  | .link _ i c, .link _ j d => i.Alike j ∧ c.Alike d
  | .last _ p, .last _ q => p.Alike q
  | .lastSplat _ s, .lastSplat _ t => s.name? = t.name?
  | _, _ => False
termination_by structural p => p

end

end Destructure
