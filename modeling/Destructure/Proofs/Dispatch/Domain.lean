/-
  Destructure/Proofs/Dispatch/Domain.lean
  =======================================
  **The domain of a dispatcher** — where a dispatcher says that it is defined, a call runs
  a branch or the fallback, and where it says that it is not, a call runs neither. What
  the branch does with the value is another matter: it may fail as a dispatcher without a
  case does, and still has been run. The dispatcher as a partial function has the same
  domain and, on it, the same answers.
-/
import Mathlib
import Destructure.Proofs.Dispatch.Choice
import Destructure.Proofs.Dispatch.Trace

namespace Destructure

/-! ### Domains -/

namespace Dispatcher

variable {d : Dispatcher} {v : Value}

theorem definedAt_of_fallback (h : d.fallback.isSome = true) : d.definedAt v = .ok true :=
  if_pos h

theorem definedAt_of_search {r : Except Failure (Option (Case × Bindings))}
    (h : d.fallback = none) (hr : firstCase? d.cases v = r) :
    d.definedAt v = r.map (·.isSome) := by
  rw [definedAt, h, hr]
  rfl

/-- A dispatcher says that it is defined where a case applies. -/
theorem definedAt_of_found {found : Case × Bindings}
    (h : firstCase? d.cases v = .ok (some found)) : d.definedAt v = .ok true := by
  cases hfallback : d.fallback with
  | none => exact definedAt_of_search hfallback h
  | some g => exact definedAt_of_fallback (by rw [hfallback]; rfl)

/-! ### As a partial function -/

theorem view_of_defined (h : d.definedAt v = .ok true) :
    d.toPartialFunction.call v = d.call v ∧
      ∀ default, d.toPartialFunction.callOrElse v default = d.call v := by
  have hview : d.toPartialFunction.definedAt v = .ok true := h
  exact ⟨PartialFunction.call_of_defined hview, PartialFunction.callOrElse_of_defined hview⟩

theorem view_of_undefined (h : d.definedAt v = .ok false) :
    Unanswered (d.toPartialFunction.call v) .outsideDomain v none ∧
      ∀ default, d.toPartialFunction.callOrElse v default = default v :=
  ⟨PartialFunction.call_of_undefined h, PartialFunction.callOrElse_of_undefined h⟩

/-- Where the call fails in asking a case, so does the dispatcher as a partial function,
    whether or not it has said before that it is defined. -/
theorem view_of_failed {f : Failure} (h : firstCase? d.cases v = .error f) :
    d.toPartialFunction.call v = throw f ∧
      ∀ default, d.toPartialFunction.callOrElse v default = throw f := by
  have hcall := call_of_failed h
  cases hfallback : d.fallback with
  | some g =>
    have hdefined : d.definedAt v = .ok true := definedAt_of_fallback (by rw [hfallback]; rfl)
    rw [← hcall]
    exact view_of_defined hdefined
  | none =>
    have hview : d.toPartialFunction.definedAt v = .error f := definedAt_of_search hfallback h
    exact ⟨PartialFunction.call_of_error hview, PartialFunction.callOrElse_of_error hview⟩

end Dispatcher

/-- A dispatcher and the partial function that it can be taken for have one domain, and a
    call tells whether the value is in it, however the branches end. If it is, one function
    is run, a branch or the fallback, and what comes of it is the answer of both, with a
    default or without. If it is not, none is run, and both have no answer but a default
    if there is one. Only a pattern or a guard that fails comes before that; it is the
    failure of all calls, and of the question for the domain unless there is a fallback,
    with which no case is asked. -/
theorem domain_is_where_functions_run (d : Dispatcher) (v : Value) :
    ∃ log, Records (d.callRecorded v) (d.call v) log ∧
      d.toPartialFunction.definedAt v = d.definedAt v ∧
      ((d.definedAt v = .ok true ∧ log.countP Event.isAnswer = 1 ∧
          d.toPartialFunction.call v = d.call v ∧
          ∀ default, d.toPartialFunction.callOrElse v default = d.call v) ∨
        (d.definedAt v = .ok false ∧ log.countP Event.isAnswer = 0 ∧
          Unanswered (d.call v) .noCase v d.lastTried ∧
          Unanswered (d.toPartialFunction.call v) .outsideDomain v none ∧
          ∀ default, d.toPartialFunction.callOrElse v default = default v) ∨
        ∃ c ∈ d.cases, ∃ f, c.Fails v f ∧ log.countP Event.isAnswer = 0 ∧
          d.definedAt v = (if d.fallback.isSome then .ok true else .error f) ∧
          d.call v = throw f ∧ d.toPartialFunction.call v = throw f ∧
          ∀ default, d.toPartialFunction.callOrElse v default = throw f) := by
  obtain ⟨log, hrecords, hanswers⟩ := callRecorded_records d v
  refine ⟨log, hrecords, rfl, ?_⟩
  generalize hresult : d.call v = result at hanswers
  cases hanswers with
  | @selected before after c bs hcases hbefore happlies =>
    have hfound := firstCase?_of_applies hbefore happlies after
    rw [← hcases] at hfound
    have hdefined := Dispatcher.definedAt_of_found hfound
    obtain ⟨hcall, hcallOrElse⟩ := Dispatcher.view_of_defined hdefined
    rw [hresult] at hcall hcallOrElse
    refine Or.inl ⟨hdefined, ?_, hcall, hcallOrElse⟩
    rw [List.countP_append, countP_askedOf]
    rfl
  | fallback hall hfallback =>
    have hdefined : d.definedAt v = .ok true :=
      Dispatcher.definedAt_of_fallback (by rw [hfallback]; rfl)
    obtain ⟨hcall, hcallOrElse⟩ := Dispatcher.view_of_defined hdefined
    rw [hresult] at hcall hcallOrElse
    refine Or.inl ⟨hdefined, ?_, hcall, hcallOrElse⟩
    rw [List.countP_append, countP_askedOf]
    rfl
  | exhausted hall hfallback hunanswered =>
    have hundefined : d.definedAt v = .ok false :=
      Dispatcher.definedAt_of_search hfallback (firstCase?_of_exhausted hall)
    obtain ⟨hcall, hcallOrElse⟩ := Dispatcher.view_of_undefined hundefined
    exact Or.inr (Or.inl ⟨hundefined, countP_askedOf v d.cases, hunanswered, hcall, hcallOrElse⟩)
  | @failed before after c f hcases hbefore hfails =>
    have hfailed := firstCase?_of_fails hbefore hfails after
    rw [← hcases] at hfailed
    obtain ⟨hcall, hcallOrElse⟩ := Dispatcher.view_of_failed hfailed
    have hdefined : d.definedAt v = (if d.fallback.isSome then .ok true else .error f) := by
      rw [Dispatcher.definedAt, hfailed]
      rfl
    exact Or.inr (Or.inr ⟨c, by simp [hcases], f, hfails, countP_askedOf v _, hdefined, rfl,
      hcall, hcallOrElse⟩)

end Destructure
