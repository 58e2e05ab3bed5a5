/-
  Destructure/Proofs/Dispatch/Trace.lean
  ======================================
  **What a call runs** — a call of a dispatcher once more, with a record of the patterns
  and guards that are asked and of the branch or the fallback that answers. The search is
  the one of the call, with another way to ask. What comes of it is what comes of the call
  (`callRecorded_records`), and the record tells that guards are asked where their patterns
  match and nowhere else, in order, that nothing is asked behind the case that answers, and
  that one function answers.
-/
import Destructure.Proofs.Dispatch.History
import Destructure.Proofs.Dispatch.Record
import Destructure.Proofs.Dispatch.Search

namespace Destructure

/-! ### Recorded calls -/

/-- What a call runs: a pattern on a value, a guard on bindings, or the one who answers. -/
inductive Event where
  | pattern (p : CompiledPattern) (v : Value)
  | guard (g : Guard) (bs : Bindings)
  | answer (a : Answerer)

def Event.isAnswer : Event → Bool
  | pattern .. | guard .. => false
  | answer _ => true

/-- Asks, with a record. -/
def Question.recorded {α : Type} : Question α → Recorded Event α
  | pattern p v => do
    record (.pattern p v)
    p.match? v
  | guard g bs => do
    record (.guard g bs)
    g bs

/-- A call with a record; calls that the branch makes in its turn have their own. -/
def Dispatcher.callRecorded (d : Dispatcher) (v : Value) : Recorded Event Value := do
  let a ← d.answererBy Question.recorded v
  record (.answer a)
  unrecorded (d.run a.program)

/-! ### What is asked of cases -/

/-- What is asked of a case: its pattern, and its guard if the pattern matches. -/
def Case.asked (v : Value) (c : Case) : List Event :=
  .pattern c.pattern v ::
    match c.pattern.match? v, c.guard with
    | .ok (some bs), some g => [.guard g bs]
    | _, _ => []

/-- What is asked of cases, one after another. -/
def askedOf (v : Value) (cs : List Case) : List Event := cs.flatMap fun c => c.asked v

theorem recorded_pattern (p : CompiledPattern) (v : Value) :
    Records (Question.pattern p v).recorded (liftM (p.match? v)) [.pattern p v] :=
  .behind_entry _ (.lift _)

theorem recorded_guard (g : Guard) (bs : Bindings) :
    Records (Question.guard g bs).recorded (liftM (g bs)) [.guard g bs] :=
  .behind_entry _ (.lift _)

theorem selectBy_records (c : Case) (v : Value) :
    Records (c.selectBy Question.recorded v) (liftM (c.select v)) (c.asked v) := by
  rw [Case.select_eq, Case.asked, Case.selectBy]
  have hpattern := recorded_pattern c.pattern v
  cases hmatch : c.pattern.match? v with
  | error f =>
    rw [hmatch] at hpattern
    exact hpattern.behind_failure
  | ok r =>
    rw [hmatch] at hpattern
    cases r with
    | none => exact hpattern.behind_result (.result none)
    | some bs =>
      cases c.guard with
      | none => exact hpattern.behind_result (.result (some bs))
      | some g =>
        have hguard := recorded_guard g bs
        refine hpattern.behind_result ?_
        cases hagrees : g bs with
        | error f =>
          rw [hagrees] at hguard
          simp only [ok_bind, hagrees]
          exact hguard.behind_failure
        | ok b =>
          rw [hagrees] at hguard
          simp only [ok_bind, hagrees]
          cases b with
          | false => exact hguard.behind_result (.result none)
          | true => exact hguard.behind_result (.result (some bs))

/-! ### What a search asks -/

section Search

variable {v : Value} {before after : List Case} {c : Case} {bs : Bindings} {f : Failure}

theorem askedOf_concat (v : Value) (cs : List Case) (c : Case) :
    askedOf v (cs ++ [c]) = askedOf v cs ++ c.asked v := by
  rw [askedOf, List.flatMap_append, List.flatMap_singleton]
  rfl

/-- Of what is asked nothing answers. -/
theorem countP_askedOf (v : Value) (cs : List Case) :
    (askedOf v cs).countP Event.isAnswer = 0 := by
  induction cs with
  | nil => rfl
  | cons c cs ih =>
    have hcase : (c.asked v).countP Event.isAnswer = 0 := by
      rw [Case.asked]
      split <;> rfl
    rw [askedOf, List.flatMap_cons, List.countP_append, hcase, Nat.zero_add]
    exact ih

/-- Cases that reject the value are asked and passed over. -/
theorem firstCaseBy?_of_rejects (h : ∀ e ∈ before, e.Rejects v) {rest : List Case}
    {r : Run (Option (Case × Bindings))} {log : List Event}
    (hrest : Records (firstCaseBy? Question.recorded rest v) r log) :
    Records (firstCaseBy? Question.recorded (before ++ rest) v) r (askedOf v before ++ log) := by
  induction before with
  | nil => exact hrest
  | cons c before ih =>
    obtain ⟨hc, hbefore⟩ := List.forall_mem_cons.mp h
    have hselect := selectBy_records c v
    rw [Case.select_of_rejects hc] at hselect
    rw [askedOf, List.flatMap_cons, List.append_assoc]
    exact hselect.behind_result (ih hbefore)

theorem firstCaseBy?_of_applies (h : ∀ e ∈ before, e.Rejects v) (hc : c.Applies v bs)
    (after : List Case) :
    Records (firstCaseBy? Question.recorded (before ++ c :: after) v) (pure (some (c, bs)))
      (askedOf v (before ++ [c])) := by
  have hselect := selectBy_records c v
  rw [Case.select_of_applies hc] at hselect
  rw [askedOf_concat]
  exact firstCaseBy?_of_rejects h (hselect.behind_result_nil (.result (some (c, bs))))

theorem firstCaseBy?_of_fails (h : ∀ e ∈ before, e.Rejects v) (hc : c.Fails v f)
    (after : List Case) :
    Records (firstCaseBy? Question.recorded (before ++ c :: after) v) (throw f)
      (askedOf v (before ++ [c])) := by
  have hselect := selectBy_records c v
  rw [Case.select_of_fails hc] at hselect
  rw [askedOf_concat]
  exact firstCaseBy?_of_rejects h hselect.behind_failure

theorem firstCaseBy?_of_exhausted {cs : List Case} (h : ∀ c ∈ cs, c.Rejects v) :
    Records (firstCaseBy? Question.recorded cs v) (pure none) (askedOf v cs) := by
  have hrest := firstCaseBy?_of_rejects h
    (show Records (firstCaseBy? Question.recorded [] v) (pure none) [] from .result none)
  rwa [List.append_nil, List.append_nil] at hrest

end Search

/-! ### What a call answers -/

/-- What a call of a dispatcher comes to, and what it runs. -/
inductive Dispatcher.Answers (d : Dispatcher) (v : Value) : Run Value → List Event → Prop
  /-- The branch of the first case that applies answers. -/
  | selected {before after : List Case} {c : Case} {bs : Bindings} :
      d.cases = before ++ c :: after → (∀ e ∈ before, e.Rejects v) → c.Applies v bs →
      d.Answers v (d.run (c.branch bs))
        (askedOf v (before ++ [c]) ++ [.answer (.branch c.branch bs)])
  /-- A pattern or a guard fails before a case applies, and no function is run. -/
  | failed {before after : List Case} {c : Case} {f : Failure} :
      d.cases = before ++ c :: after → (∀ e ∈ before, e.Rejects v) → c.Fails v f →
      d.Answers v (throw f) (askedOf v (before ++ [c]))
  /-- The fallback answers. -/
  | fallback {g : Fallback} :
      (∀ c ∈ d.cases, c.Rejects v) → d.fallback = some g →
      d.Answers v (d.run (g v)) (askedOf v d.cases ++ [.answer (.fallback g v)])
  /-- There is no function to run. -/
  | exhausted {r : Run Value} :
      (∀ c ∈ d.cases, c.Rejects v) → d.fallback = none → Unanswered r .noCase v d.lastTried →
      d.Answers v r (askedOf v d.cases)

theorem Dispatcher.Answers.countP_le_one {d : Dispatcher} {v : Value} {r : Run Value}
    {log : List Event} (h : d.Answers v r log) : log.countP Event.isAnswer ≤ 1 := by
  cases h with
  | selected | fallback =>
    rw [List.countP_append, countP_askedOf]
    exact Nat.le_refl 1
  | failed | exhausted =>
    rw [countP_askedOf]
    exact Nat.zero_le 1

/-- Whoever answers is the last one to be recorded. -/
theorem callRecorded_of_answerer {d : Dispatcher} {v : Value} {a : Answerer}
    {r : Run Value} {log : List Event}
    (h : Records (d.answererBy Question.recorded v) (pure a) log) (hr : d.run a.program = r) :
    Records (d.callRecorded v) r (log ++ [.answer a]) := by
  subst hr
  exact h.behind_result (.behind_entry _ (.unrecorded _))

/-- A call comes to what it comes to with a record, and of functions runs the one that
    answers. -/
theorem callRecorded_records (d : Dispatcher) (v : Value) :
    ∃ log, Records (d.callRecorded v) (d.call v) log ∧ d.Answers v (d.call v) log := by
  have hsearch := firstCase?_search d.cases v
  generalize hcs : d.cases = cs at hsearch
  generalize hr : firstCase? cs v = r at hsearch
  rw [← hcs] at hr
  cases hsearch with
  | @selected before after c bs hbefore happlies =>
    have hfirst := firstCaseBy?_of_applies hbefore happlies after
    rw [← hcs] at hfirst
    have hanswerer : Records (d.answererBy Question.recorded v) (pure (.branch c.branch bs))
        (askedOf v (before ++ [c])) := hfirst.behind_result_nil (.result _)
    rw [Dispatcher.call_of_found hr]
    exact ⟨_, callRecorded_of_answerer hanswerer rfl, .selected hcs hbefore happlies⟩
  | @failed before after c f hbefore hfails =>
    have hfirst := firstCaseBy?_of_fails hbefore hfails after
    rw [← hcs] at hfirst
    rw [Dispatcher.call_of_failed hr]
    exact ⟨_, hfirst.behind_failure.behind_failure, .failed hcs hbefore hfails⟩
  | exhausted hall =>
    rw [← hcs] at hall
    have hfirst := firstCaseBy?_of_exhausted hall
    cases hfallback : d.fallback with
    | some g =>
      have hanswerer : Records (d.answererBy Question.recorded v) (pure (.fallback g v))
          (askedOf v d.cases) := by
        rw [Dispatcher.answererBy, hfallback]
        exact hfirst.behind_result_nil (.result _)
      rw [Dispatcher.call_of_fallback hr hfallback]
      exact ⟨_, callRecorded_of_answerer hanswerer rfl, .fallback hall hfallback⟩
    | none =>
      have hanswerer : Records (d.answererBy Question.recorded v) (throw (d.exhausted v))
          (askedOf v d.cases) := by
        rw [Dispatcher.answererBy, hfallback]
        exact hfirst.behind_result_nil (.failure _)
      have hcall : d.call v = throw (d.exhausted v) := Dispatcher.call_of_no_case hr hfallback
      refine ⟨_, ?_, .exhausted hall hfallback (unanswered_of_eq hcall)⟩
      rw [hcall]
      exact hanswerer.behind_failure

/-! ### Behind a history -/

/-- Any history of operations leaves the cases that were registered, in order, and the
    fallback that was set last; one that fails leaves all as it was. And the dispatcher
    that is left answers each value with one function at most: the branch of the first
    case that applies, on its bindings; the fallback, if no case applies; and without
    one there is no answer. Until then the patterns are asked in order, of guards those
    whose patterns match, and nothing behind the case that answers or fails. A function
    that calls the dispatcher again goes on, each time, with what the call comes to. -/
theorem first_case_answers (rs : List Registration) (d : Dispatcher) :
    ∃ d', (Registration.performAll rs).run d = (rs.map Registration.outcome, d') ∧
      d'.cases = d.cases ++ rs.filterMap Registration.case? ∧
      d'.fallback = (rs.filterMap Registration.fallback?).getLast?.or d.fallback ∧
      (∀ r ∈ rs, ∀ f, r.outcome = .error f → ∀ e, r.perform.run.run e = (.error f, e)) ∧
      (∀ v, ∃ log, Records (d'.callRecorded v) (d'.call v) log ∧
        d'.Answers v (d'.call v) log ∧ log.countP Event.isAnswer ≤ 1) ∧
      (∀ r, d'.run (.done r) = r) ∧
      ∀ v next, d'.run (.call v next) =
        (do let r ← (d'.call v).run
            (d'.run (next r)).run : Option (Except Failure Value)) := by
  refine ⟨_, Registration.performAll_run rs d, rfl, rfl, ?_, ?_, Dispatcher.run_done _,
    Dispatcher.run_call _⟩
  · intro r _ f hfails e
    exact Registration.perform_of_fails hfails e
  · intro v
    obtain ⟨log, hrecords, hanswers⟩ := callRecorded_records _ v
    exact ⟨log, hrecords, hanswers, hanswers.countP_le_one⟩

end Destructure
