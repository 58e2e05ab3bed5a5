/-
  Destructure/Proofs/Compile/Validation.lean
  ==========================================
  **What the check of a pattern reports** — one diagnostic for each breach of a rule
  and no other, in the order of the text; the tree is handed on as it is. A text
  compiles exactly if it is read and there is nothing to report.
-/
import Mathlib
import Destructure.Proofs.Compile.Compilation
import Destructure.Proofs.Pattern.Order

namespace Destructure

/-- The diagnostic says where the breach is and which rule it is one of; one about a
    name says where the name stands first. -/
def Violation.Reported (source : String) : Violation → Diagnostic → Prop
  | splatNotLast s, d => d.code = some "E0101" ∧ d.span = some (s.extent.within source)
  | repeatedName n first, d => d.code = some "E0102" ∧ d.span = some (n.extent.within source) ∧
      d.note = some ("first bound at " ++ (first.extent.within source).position)

theorem Violation.reported (source sourceName : String) (v : Violation) :
    v.Reported source (v.diagnostic source sourceName) := by
  cases v with
  | splatNotLast s => exact ⟨rfl, rfl⟩
  | repeatedName n first => exact ⟨rfl, rfl, rfl⟩

end Destructure
