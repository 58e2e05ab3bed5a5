/-
  Destructure/Dispatch/Registration.lean
  ======================================
  **Registration** — a dispatcher is filled by one operation after another. A case is
  put behind those that are there, at once, or in two steps: its pattern and its guard
  are prepared first, and the branch completes them later. A fallback takes the place
  of an earlier one. Patterns are compiled before the dispatcher is touched, so one that
  does not compile leaves it as it is, and further operations can follow.

  Mirrors `CaseMatcher.case` with its `register`, and `CaseMatcher.else_`, of
  the program.
-/
import Destructure.Dispatch.Basic

namespace Destructure

/-- A case that waits for its branch. -/
structure PendingCase where
  pattern : CompiledPattern
  guard : Option Guard

/-- An action on a dispatcher that can fail; what has been done to the dispatcher by
    then stays. -/
abbrev DispatcherAction (α : Type) := ExceptT Failure (StateM Dispatcher) α

/-- What can be done to a dispatcher. -/
inductive Registration where
  | case (pattern : PatternSource) (branch : Branch) (guard : Option Guard)
  | prepare (pattern : PatternSource) (guard : Option Guard)
  | complete (pending : PendingCase) (branch : Branch)
  | fallback (f : Fallback)

namespace Registration

/-- Performs an operation. A preparation hands out the case that waits. -/
def perform : Registration → DispatcherAction (Option PendingCase)
  | case pattern branch guard => do
    set (← (← get).register pattern branch guard)
    return none
  | prepare pattern guard => do return some ⟨← pattern.resolve, guard⟩
  | complete pending branch => do
    modify fun d => { d with cases := d.cases ++ [⟨pending.pattern, branch, pending.guard⟩] }
    return none
  | fallback f => do
    modify fun d => d.withFallback f
    return none

/-- Performs operations one after another, those behind a failure as well. -/
def performAll :
    List Registration → StateM Dispatcher (List (Except Failure (Option PendingCase)))
  | [] => return []
  | r :: rs => do
    let outcome ← r.perform.run
    return outcome :: (← performAll rs)

end Registration

end Destructure
