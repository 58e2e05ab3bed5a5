/-
  Destructure/Proofs/Dispatch/History.lean
  ========================================
  **What registration leaves** — one operation adds at most a case, or sets the
  fallback, and one that fails does neither. So behind any history of operations the
  cases are those that have been registered, in their order, and the fallback is the
  last that has been set.
-/
import Destructure.Dispatch.Registration
import Destructure.Proofs.Outcome

namespace Destructure

namespace Registration

/-! ### One operation -/

/-- What an operation hands out or fails with, whatever the dispatcher holds. -/
def outcome : Registration → Except Failure (Option PendingCase)
  | case pattern _ _ => pattern.resolve.map fun _ => none
  | prepare pattern guard => pattern.resolve.map fun p => some ⟨p, guard⟩
  | complete .. | fallback _ => .ok none

/-- The case that an operation adds. -/
def case? : Registration → Option Case
  | case pattern branch guard => pattern.resolve.toOption.map fun p => ⟨p, branch, guard⟩
  | complete pending branch => some ⟨pending.pattern, branch, pending.guard⟩
  | prepare .. | fallback _ => none

/-- The fallback that an operation sets. -/
def fallback? : Registration → Option Fallback
  | fallback f => some f
  | case .. | prepare .. | complete .. => none

/-- An operation hands out what it does and leaves the cases, one more if it adds one,
    with the fallback, its own if it sets one. -/
theorem perform_run (r : Registration) (d : Dispatcher) :
    r.perform.run.run d =
      (r.outcome, ⟨d.cases ++ r.case?.toList, r.fallback?.or d.fallback⟩) := by
  obtain ⟨cases, current⟩ := d
  cases r with
  | case pattern branch guard =>
    simp only [perform, outcome, case?, fallback?, Dispatcher.register]
    cases pattern.resolve with
    | error f =>
      simp only [Except.toOption, Option.map_none, Option.toList_none, List.append_nil]
      rfl
    | ok p => rfl
  | prepare pattern guard =>
    simp only [perform, outcome, case?, fallback?, Option.toList_none, List.append_nil]
    cases pattern.resolve <;> rfl
  | complete pending branch => rfl
  | fallback f =>
    simp only [perform, outcome, case?, fallback?, Option.toList_none, List.append_nil]
    rfl

theorem adds_nothing_of_fails {r : Registration} {f : Failure} (h : r.outcome = .error f) :
    r.case? = none ∧ r.fallback? = none := by
  cases r with
  | case pattern branch guard =>
    cases hresolve : pattern.resolve with
    | error f => simp [case?, fallback?, hresolve, Except.toOption]
    | ok p => simp [outcome, hresolve, Except.map] at h
  | prepare pattern guard => exact ⟨rfl, rfl⟩
  | complete pending branch => cases h
  | fallback g => cases h

/-- An operation that fails leaves the dispatcher as it is. -/
theorem perform_of_fails {r : Registration} {f : Failure} (h : r.outcome = .error f)
    (d : Dispatcher) : r.perform.run.run d = (.error f, d) := by
  obtain ⟨hcase, hfallback⟩ := adds_nothing_of_fails h
  rw [perform_run, h, hcase, hfallback]
  simp

/-! ### Histories -/

theorem filterMap_cons_toList {α β : Type} (f : α → Option β) (x : α) (xs : List α) :
    (x :: xs).filterMap f = (f x).toList ++ xs.filterMap f := by
  cases h : f x with
  | none => simp [h]
  | some y => simp [h]

/-- What a history of operations leaves: the cases that were registered, in order, behind
    those that were there, and the fallback that was set last. -/
theorem performAll_run (rs : List Registration) (d : Dispatcher) :
    (performAll rs).run d =
      (rs.map outcome,
        ⟨d.cases ++ rs.filterMap case?, (rs.filterMap fallback?).getLast?.or d.fallback⟩) := by
  induction rs generalizing d with
  | nil =>
    rw [List.filterMap_nil, List.filterMap_nil, List.append_nil]
    rfl
  | cons r rs ih =>
    have hstep : (performAll (r :: rs)).run d =
        (fun s : Except Failure (Option PendingCase) × Dispatcher =>
          (s.1 :: ((performAll rs).run s.2).1, ((performAll rs).run s.2).2))
          (r.perform.run.run d) := rfl
    have hlast : r.fallback?.toList.getLast? = r.fallback? := by
      cases r.fallback? with
      | none => rfl
      | some g => rfl
    rw [hstep, perform_run]
    dsimp only
    rw [ih, filterMap_cons_toList case?, filterMap_cons_toList fallback?, List.getLast?_append,
      hlast, Option.or_assoc, List.append_assoc]
    rfl

end Registration

end Destructure
