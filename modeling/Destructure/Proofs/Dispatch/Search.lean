/-
  Destructure/Proofs/Dispatch/Search.lean
  =======================================
  **The search for a case** — cases are asked in their order, up to the first that does
  not reject the value: it applies, or something that it asks fails. A guard is asked
  where the pattern matches, and of a case behind the one that is found nothing is.
-/
import Destructure.Dispatch.Basic
import Destructure.Proofs.Mismatch
import Destructure.Proofs.Outcome

namespace Destructure

/-! ### What a case does with a value -/

namespace Case

variable {c : Case} {v : Value} {bs : Bindings} {f : Failure}

/-- The pattern matches, and the guard, if there is one, agrees to the bindings. -/
def Applies (c : Case) (v : Value) (bs : Bindings) : Prop :=
  c.pattern.match? v = .ok (some bs) ∧ ∀ g, c.guard = some g → g bs = .ok true

/-- The pattern does not match, or there is a guard and it does not agree. -/
def Rejects (c : Case) (v : Value) : Prop :=
  c.pattern.match? v = .ok none ∨
    ∃ bs g, c.pattern.match? v = .ok (some bs) ∧ c.guard = some g ∧ g bs = .ok false

/-- The pattern cannot be compared with the value, or the guard fails on the bindings. -/
def Fails (c : Case) (v : Value) (f : Failure) : Prop :=
  c.pattern.match? v = .error f ∨
    ∃ bs g, c.pattern.match? v = .ok (some bs) ∧ c.guard = some g ∧ g bs = .error f

theorem select_eq (c : Case) (v : Value) :
    c.select v = c.pattern.match? v >>= fun r =>
      match r, c.guard with
      | none, _ => .ok none
      | some bs, none => .ok (some bs)
      | some bs, some g => g bs >>= fun b => if b then .ok (some bs) else .ok none := rfl

theorem select_of_applies (h : c.Applies v bs) : c.select v = .ok (some bs) := by
  obtain ⟨hmatch, hguard⟩ := h
  rw [select_eq, hmatch]
  cases hg : c.guard with
  | none => rfl
  | some g =>
    simp only [ok_bind, hguard g hg]
    rfl

theorem select_of_rejects (h : c.Rejects v) : c.select v = .ok none := by
  rw [select_eq]
  rcases h with hmatch | ⟨bs, g, hmatch, hg, hrefuses⟩
  · rw [hmatch]
    rfl
  · rw [hmatch, hg]
    simp only [ok_bind, hrefuses]
    rfl

theorem select_of_fails (h : c.Fails v f) : c.select v = .error f := by
  rw [select_eq]
  rcases h with hmatch | ⟨bs, g, hmatch, hg, hfails⟩
  · rw [hmatch]
    rfl
  · rw [hmatch, hg]
    simp only [ok_bind, hfails]
    rfl

theorem applies_or_rejects_or_fails (c : Case) (v : Value) :
    (∃ bs, c.Applies v bs) ∨ c.Rejects v ∨ ∃ f, c.Fails v f := by
  cases hmatch : c.pattern.match? v with
  | error f => exact Or.inr (Or.inr ⟨f, Or.inl hmatch⟩)
  | ok r =>
    cases r with
    | none => exact Or.inr (Or.inl (Or.inl hmatch))
    | some bs =>
      cases hg : c.guard with
      | none =>
        refine Or.inl ⟨bs, hmatch, ?_⟩
        intro g hsome
        rw [hg] at hsome
        cases hsome
      | some g =>
        cases hagrees : g bs with
        | error f => exact Or.inr (Or.inr ⟨f, Or.inr ⟨bs, g, hmatch, hg, hagrees⟩⟩)
        | ok b =>
          cases b with
          | false => exact Or.inr (Or.inl (Or.inr ⟨bs, g, hmatch, hg, hagrees⟩))
          | true =>
            refine Or.inl ⟨bs, hmatch, ?_⟩
            intro g' hsome
            rw [hg] at hsome
            cases hsome
            exact hagrees

end Case

/-! ### What a search comes to -/

/-- What a search through the cases comes to: it stops at the first case that does not
    reject the value. -/
inductive Search (v : Value) : List Case → Except Failure (Option (Case × Bindings)) → Prop
  | exhausted {cs : List Case} : (∀ c ∈ cs, c.Rejects v) → Search v cs (.ok none)
  | selected (before : List Case) {after : List Case} {c : Case} {bs : Bindings} :
      (∀ e ∈ before, e.Rejects v) → c.Applies v bs →
      Search v (before ++ c :: after) (.ok (some (c, bs)))
  | failed (before : List Case) {after : List Case} {c : Case} {f : Failure} :
      (∀ e ∈ before, e.Rejects v) → c.Fails v f → Search v (before ++ c :: after) (.error f)

namespace Search

variable {v : Value} {cs : List Case} {r : Except Failure (Option (Case × Bindings))} {c : Case}

/-- A case in front that rejects the value changes nothing. -/
theorem cons (hc : c.Rejects v) (h : Search v cs r) : Search v (c :: cs) r := by
  cases h with
  | exhausted hall => exact .exhausted (List.forall_mem_cons.mpr ⟨hc, hall⟩)
  | selected before hbefore happlies =>
    exact .selected (c :: before) (List.forall_mem_cons.mpr ⟨hc, hbefore⟩) happlies
  | failed before hbefore hfails =>
    exact .failed (c :: before) (List.forall_mem_cons.mpr ⟨hc, hbefore⟩) hfails

end Search

theorem firstCase?_cons (c : Case) (cs : List Case) (v : Value) :
    firstCase? (c :: cs) v = c.select v >>= fun r =>
      match r with
      | some bs => .ok (some (c, bs))
      | none => firstCase? cs v := rfl

theorem firstCase?_search (cs : List Case) (v : Value) : Search v cs (firstCase? cs v) := by
  induction cs with
  | nil => exact .exhausted (by simp)
  | cons c cs ih =>
    rw [firstCase?_cons]
    rcases c.applies_or_rejects_or_fails v with ⟨bs, h⟩ | h | ⟨f, h⟩
    · rw [Case.select_of_applies h]
      exact .selected [] (by simp) h
    · rw [Case.select_of_rejects h]
      exact ih.cons h
    · rw [Case.select_of_fails h]
      exact .failed [] (by simp) h

section Found

variable {v : Value} {before : List Case} {c : Case} {bs : Bindings} {f : Failure}

theorem firstCase?_of_rejects (h : ∀ e ∈ before, e.Rejects v) (rest : List Case) :
    firstCase? (before ++ rest) v = firstCase? rest v := by
  induction before with
  | nil => rfl
  | cons e before ih =>
    obtain ⟨he, hbefore⟩ := List.forall_mem_cons.mp h
    rw [List.cons_append, firstCase?_cons, Case.select_of_rejects he]
    exact ih hbefore

theorem firstCase?_of_applies (h : ∀ e ∈ before, e.Rejects v) (hc : c.Applies v bs)
    (after : List Case) : firstCase? (before ++ c :: after) v = .ok (some (c, bs)) := by
  rw [firstCase?_of_rejects h, firstCase?_cons, Case.select_of_applies hc]
  rfl

theorem firstCase?_of_fails (h : ∀ e ∈ before, e.Rejects v) (hc : c.Fails v f)
    (after : List Case) : firstCase? (before ++ c :: after) v = .error f := by
  rw [firstCase?_of_rejects h, firstCase?_cons, Case.select_of_fails hc]
  rfl

theorem firstCase?_of_exhausted {cs : List Case} (h : ∀ c ∈ cs, c.Rejects v) :
    firstCase? cs v = .ok none := by
  have hrest := firstCase?_of_rejects h []
  rwa [List.append_nil] at hrest

end Found

/-! ### What a dispatcher answers -/

namespace Dispatcher

variable {d : Dispatcher} {v : Value}

theorem answerer_eq (d : Dispatcher) (v : Value) :
    d.answerer v = firstCase? d.cases v >>= fun r =>
      match r, d.fallback with
      | some (c, bs), _ => .ok (.branch c.branch bs)
      | none, some g => .ok (.fallback g v)
      | none, none => .error (d.exhausted v) := rfl

/-- What a program comes to that calls nothing. -/
theorem run_done (d : Dispatcher) (r : Run Value) : d.run (.done r) = r := by
  rw [run]

/-- A program that makes a call goes on with what comes of it, if anything does. -/
theorem run_call (d : Dispatcher) (v : Value) (next : Except Failure Value → Program Value) :
    d.run (.call v next) = (do
      let r ← (d.call v).run
      (d.run (next r)).run : Option (Except Failure Value)) := by
  rw [run]
  rfl

theorem answerer_of_found {c : Case} {bs : Bindings}
    (h : firstCase? d.cases v = .ok (some (c, bs))) :
    d.answerer v = .ok (.branch c.branch bs) := by
  rw [answerer_eq, h]
  rfl

/-- The branch of the case that is found answers. -/
theorem call_of_found {c : Case} {bs : Bindings}
    (h : firstCase? d.cases v = .ok (some (c, bs))) : d.call v = d.run (c.branch bs) := by
  rw [call, answerer_of_found h]
  rfl

theorem call_of_fallback {g : Fallback} (h : firstCase? d.cases v = .ok none)
    (hfallback : d.fallback = some g) : d.call v = d.run (g v) := by
  rw [call, answerer_eq, h, hfallback]
  rfl

theorem call_of_no_case (h : firstCase? d.cases v = .ok none) (hfallback : d.fallback = none) :
    d.call v = throw (d.exhausted v) := by
  rw [call, answerer_eq, h, hfallback]
  rfl

theorem call_of_exhausted (h : firstCase? d.cases v = .ok none) (hfallback : d.fallback = none) :
    Unanswered (d.call v) .noCase v d.lastTried :=
  unanswered_of_eq (call_of_no_case h hfallback)

theorem call_of_failed {f : Failure} (h : firstCase? d.cases v = .error f) :
    d.call v = throw f := by
  rw [call, answerer_eq, h]
  rfl

end Dispatcher

/-! ### Two lists of cases -/

/-- A search through two lists of cases goes on to the second one where the first is
    exhausted. -/
theorem firstCase?_append (cs ds : List Case) (v : Value) :
    firstCase? (cs ++ ds) v =
      (firstCase? cs v >>= fun r => if r.isSome then .ok r else firstCase? ds v) := by
  induction cs with
  | nil => rfl
  | cons c cs ih =>
    rw [List.cons_append, firstCase?_cons, firstCase?_cons]
    cases c.select v with
    | error f => rfl
    | ok r =>
      cases r with
      | none => exact ih
      | some bs => rfl

end Destructure
