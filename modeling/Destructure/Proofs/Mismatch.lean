/-
  Destructure/Proofs/Mismatch.lean
  ================================
  **Values that nothing answers** — where a value is not matched, there is one failure,
  and it depends on the value which one: a value that can be shown is shown and carried
  by it, and over any other value the failure is that it cannot be shown.
-/
import Destructure.Failure

namespace Destructure

/-- There is no answer to the value. A failure for the given cause shows the value,
    carries it and has the place; if the value cannot be shown, that is the failure. -/
def Unanswered {m : Type → Type} [MonadExcept Failure m] {α : Type} (r : m α)
    (cause : Mismatch) (v : Value) (span : Option Span) : Prop :=
  (∀ shown, v.show = .ok shown →
    r = throw (.mismatch cause.isOfPattern (cause.message shown) v span)) ∧
  ∀ fault, v.show = .error fault → r = throw (.fault fault)

section Unmatched

variable {cause : Mismatch} {v : Value} {span : Option Span}

theorem Failure.unmatched_of_shown {shown : String} (h : v.show = .ok shown) :
    unmatched cause v span = .mismatch cause.isOfPattern (cause.message shown) v span := by
  rw [unmatched, h]

theorem Failure.unmatched_of_not_shown {fault : Fault} (h : v.show = .error fault) :
    unmatched cause v span = .fault fault := by
  rw [unmatched, h]

/-- What fails to match a value does not answer it. -/
theorem unanswered_of_eq {m : Type → Type} [MonadExcept Failure m] {α : Type} {r : m α}
    (h : r = throw (Failure.unmatched cause v span)) : Unanswered r cause v span := by
  refine ⟨fun shown hshown => ?_, fun fault hfault => ?_⟩
  · rw [h, Failure.unmatched_of_shown hshown]
  · rw [h, Failure.unmatched_of_not_shown hfault]

end Unmatched

end Destructure
