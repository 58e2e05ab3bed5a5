/-
  Destructure/Proofs/Dispatch/Choice.lean
  =======================================
  **Two ways to choose** — clauses, each a pattern text with a branch, can be put into
  a dispatcher, or made into partial functions that are chosen between, two at a time
  and in any grouping. A dispatcher searches its cases once and keeps the bindings; a
  choice asks again at each of its levels where it is defined. Both come to the same
  clause (`PartialFunction.Chooses`, one lemma for a leaf and one for a choice).
-/
import Destructure.Dispatch.PartialFunction
import Destructure.Proofs.Compile.Views
import Destructure.Proofs.Dispatch.Search

namespace Destructure

/-- A pattern text, and what is run on the bindings. -/
structure Clause where
  source : String
  branch : Bindings → Run Value

namespace Clause

/-- The clause as a dispatcher takes it. -/
def case (k : Clause) : PatternSource × Branch := (.text k.source, fun bs => .done (k.branch bs))

/-- The text compiles to a pattern that captures the bindings of the value. -/
def Finds (k : Clause) (v : Value) (bs : Bindings) : Prop :=
  ∃ p, compilePattern k.source = .ok p ∧ p.match? v = .ok (some bs)

/-- The text compiles to a pattern that does not match the value. -/
def Misses (k : Clause) (v : Value) : Prop :=
  ∃ p, compilePattern k.source = .ok p ∧ p.match? v = .ok none

end Clause

/-- Clauses that are chosen between, in some grouping. -/
inductive Choice where
  | clause (k : Clause)
  | orElse (first second : Choice)

namespace Choice

/-- The clauses from left to right. -/
def clauses : Choice → List Clause
  | clause k => [k]
  | orElse first second => first.clauses ++ second.clauses

/-- A partial function for each clause, composed as the choice is. -/
def toPartialFunction : Choice → Except Failure (PartialFunction Run)
  | clause k => do return .ofPattern (← compilePattern k.source) k.branch
  | orElse first second => do
    return (← first.toPartialFunction).orElse (← second.toPartialFunction)

end Choice

/-! ### Partial functions that choose a case -/

/-- At the value, the partial function does what a search through cases has come to: it
    runs the branch of the case that was found on the bindings, is not defined where
    none was, and fails where the search did. -/
inductive PartialFunction.Chooses (f : PartialFunction Run) (v : Value) :
    Except Failure (Option (Case × Bindings)) → Prop
  | found {c : Case} {bs : Bindings} : f.definedAt v = .ok true →
      c.branch bs = .done (f.function v) → f.Chooses v (.ok (some (c, bs)))
  | missed : f.definedAt v = .ok false → f.Chooses v (.ok none)
  | failed {e : Failure} : f.definedAt v = .error e → f.Chooses v (.error e)

namespace PartialFunction

variable {f g : PartialFunction Run} {v : Value} {e : Failure}
  {r s : Except Failure (Option (Case × Bindings))}

theorem call_of_defined (h : f.definedAt v = .ok true) : f.call v = f.function v := by
  rw [call, h]
  rfl

theorem call_of_undefined (h : f.definedAt v = .ok false) :
    Unanswered (f.call v) .outsideDomain v none := by
  apply unanswered_of_eq
  rw [call, h]
  rfl

theorem call_of_error (h : f.definedAt v = .error e) : f.call v = throw e := by
  rw [call, h]
  rfl

theorem callOrElse_of_defined (h : f.definedAt v = .ok true) (default : Responder) :
    f.callOrElse v default = f.function v := by
  rw [callOrElse, h]
  rfl

theorem callOrElse_of_undefined (h : f.definedAt v = .ok false) (default : Responder) :
    f.callOrElse v default = default v := by
  rw [callOrElse, h]
  rfl

theorem callOrElse_of_error (h : f.definedAt v = .error e) (default : Responder) :
    f.callOrElse v default = throw e := by
  rw [callOrElse, h]
  rfl

/-- A partial function of a pattern chooses its only case. -/
theorem chooses_ofPattern {source : String} {p : CompiledPattern}
    (hp : compilePattern source = .ok p) (branch : Bindings → Run Value) (v : Value) :
    (ofPattern p branch).Chooses v
      (firstCase? [⟨p, fun bs => .done (branch bs), none⟩] v) := by
  have hcondition : (ofPattern p branch).definedAt v = orFault (p.definedAt v) := rfl
  cases hdefined : p.definedAt v with
  | error fault =>
    have hmatch : p.match? v = .error (.fault fault) := by
      rw [CompiledPattern.match?, hdefined]
      rfl
    rw [firstCase?_cons, Case.select_of_fails (Or.inl hmatch)]
    rw [hdefined] at hcondition
    exact .failed hcondition
  | ok b =>
    rw [hdefined] at hcondition
    cases b with
    | false =>
      have hmatch := CompiledPattern.match?_of_not_definedAt hdefined
      rw [firstCase?_cons, Case.select_of_rejects (Or.inl hmatch)]
      exact .missed hcondition
    | true =>
      obtain ⟨bs, hmatch, hbindings⟩ := exists_match_of_definedAt hp hdefined
      rw [firstCase?_cons, Case.select_of_applies ⟨hmatch, by simp⟩]
      refine .found hcondition ?_
      simp only [ofPattern, hbindings]
      rfl

/-- A choice between two partial functions goes on to the search of the second one where
    that of the first has found nothing. -/
theorem Chooses.orElse (hf : f.Chooses v r) (hg : g.Chooses v s) :
    (f.orElse g).Chooses v (r >>= fun x => if x.isSome then .ok x else s) := by
  have hcondition : (f.orElse g).definedAt v =
      (f.definedAt v >>= fun b => if b then pure true else g.definedAt v) := rfl
  have hfunction : (f.orElse g).function v =
      ((liftM (f.definedAt v) : Run Bool) >>= fun b =>
        if b then f.function v else g.call v) := rfl
  cases hf with
  | failed hfails =>
    rw [hfails] at hcondition
    exact .failed hcondition
  | found hdefined hbranch =>
    rw [hdefined] at hcondition hfunction
    exact .found hcondition (hbranch.trans (congrArg Program.done hfunction.symm))
  | missed hundefined =>
    rw [hundefined] at hcondition hfunction
    cases hg with
    | failed hfails => exact .failed (hcondition.trans hfails)
    | missed hmissed => exact .missed (hcondition.trans hmissed)
    | found hdefined hbranch =>
      refine .found (hcondition.trans hdefined) ?_
      rw [hbranch, hfunction]
      exact congrArg Program.done (call_of_defined hdefined).symm

end PartialFunction

/-! ### Clauses that compile -/

section Compiled

/-- The case of a clause whose pattern has been compiled. -/
def Clause.compiled (compile : Clause → CompiledPattern) (k : Clause) : Case :=
  ⟨compile k, fun bs => .done (k.branch bs), none⟩

variable {compile : Clause → CompiledPattern}

theorem register_cases {ks : List Clause}
    (hcompile : ∀ k ∈ ks, compilePattern k.source = .ok (compile k)) (d : Dispatcher) :
    (ks.map Clause.case).foldlM (fun d k => d.register k.1 k.2 none) d =
      .ok ⟨d.cases ++ ks.map (Clause.compiled compile), d.fallback⟩ := by
  induction ks generalizing d with
  | nil => simp
  | cons k ks ih =>
    obtain ⟨hk, hks⟩ := List.forall_mem_cons.mp hcompile
    have hregister : d.register (Clause.case k).1 (Clause.case k).2 none =
        .ok ⟨d.cases ++ [k.compiled compile], d.fallback⟩ := by
      simp only [Dispatcher.register, Clause.case, PatternSource.resolve, hk]
      rfl
    rw [List.map_cons, List.foldlM_cons, hregister, ok_bind, ih hks]
    simp

theorem ofCases_of_compiled {ks : List Clause}
    (hcompile : ∀ k ∈ ks, compilePattern k.source = .ok (compile k)) :
    Dispatcher.ofCases (ks.map Clause.case) = .ok ⟨ks.map (Clause.compiled compile), none⟩ :=
  register_cases hcompile .empty

/-- However clauses are grouped, the choice between them searches their cases from left
    to right. -/
theorem Choice.exists_partialFunction (t : Choice)
    (hcompile : ∀ k ∈ t.clauses, compilePattern k.source = .ok (compile k)) :
    ∃ f, t.toPartialFunction = .ok f ∧
      ∀ v, f.Chooses v (firstCase? (t.clauses.map (Clause.compiled compile)) v) := by
  induction t with
  | clause k =>
    have hk := hcompile k (List.mem_singleton.mpr rfl)
    refine ⟨.ofPattern (compile k) k.branch, ?_, ?_⟩
    · simp only [toPartialFunction, hk]
      rfl
    · intro v
      exact PartialFunction.chooses_ofPattern hk k.branch v
  | orElse first second ihfirst ihsecond =>
    obtain ⟨hleft, hright⟩ := List.forall_mem_append.mp hcompile
    obtain ⟨f, hf, hfchooses⟩ := ihfirst hleft
    obtain ⟨g, hg, hgchooses⟩ := ihsecond hright
    refine ⟨f.orElse g, ?_, ?_⟩
    · simp only [toPartialFunction, hf, hg]
      rfl
    · intro v
      rw [clauses, List.map_append, firstCase?_append]
      exact (hfchooses v).orElse (hgchooses v)

theorem Clause.finds_of_applies {k : Clause} {v : Value} {bs : Bindings}
    (hk : compilePattern k.source = .ok (compile k)) (h : (k.compiled compile).Applies v bs) :
    k.Finds v bs :=
  ⟨compile k, hk, h.1⟩

theorem Clause.misses_of_rejects {k : Clause} {v : Value}
    (hk : compilePattern k.source = .ok (compile k)) (h : (k.compiled compile).Rejects v) :
    k.Misses v := by
  rcases h with hmatch | ⟨bs, g, -, hguard, -⟩
  · exact ⟨compile k, hk, hmatch⟩
  · cases hguard

/-- A clause without a guard fails over a value only that its pattern cannot be compared
    with. -/
theorem Clause.faults_of_fails {k : Clause} {v : Value} {e : Failure}
    (hk : compilePattern k.source = .ok (compile k)) (h : (k.compiled compile).Fails v e) :
    ∃ p fault, compilePattern k.source = .ok p ∧ p.definedAt v = .error fault ∧
      e = .fault fault := by
  rcases h with hmatch | ⟨bs, g, -, hguard, -⟩
  · refine ⟨compile k, ?_⟩
    replace hmatch : (compile k).match? v = .error e := hmatch
    cases hdefined : (compile k).definedAt v with
    | error fault =>
      rw [CompiledPattern.match?, hdefined] at hmatch
      cases hmatch
      exact ⟨fault, hk, rfl, rfl⟩
    | ok b =>
      cases b with
      | false =>
        rw [CompiledPattern.match?_of_not_definedAt hdefined] at hmatch
        cases hmatch
      | true =>
        obtain ⟨bs, hsome, -⟩ := exists_match_of_definedAt hk hdefined
        rw [hsome] at hmatch
        cases hmatch
  · cases hguard

/-- Where the cases of clauses part, the clauses do. -/
theorem clauses_of_split {ks : List Clause} {before after : List Case} {c : Case}
    (h : ks.map (Clause.compiled compile) = before ++ c :: after) :
    ∃ front k rest, ks = front ++ k :: rest ∧ front.map (Clause.compiled compile) = before ∧
      k.compiled compile = c := by
  obtain ⟨front, others, rfl, hfront, hothers⟩ := List.map_eq_append_iff.mp h
  obtain ⟨k, rest, rfl, hk, -⟩ := List.map_eq_cons_iff.mp hothers
  exact ⟨front, k, rest, rfl, hfront, hk⟩

theorem misses_of_rejects {ks : List Clause} {v : Value}
    (hcompile : ∀ k ∈ ks, compilePattern k.source = .ok (compile k))
    (h : ∀ c ∈ ks.map (Clause.compiled compile), c.Rejects v) : ∀ k ∈ ks, k.Misses v := by
  intro k hk
  exact Clause.misses_of_rejects (hcompile k hk) (h _ (List.mem_map_of_mem hk))

end Compiled

/-- A dispatcher of clauses that compile, the call of one that is made for the occasion,
    and any choice between partial functions of the clauses agree at every value. They
    are defined there or not alike. Where the search comes to a clause that matches,
    they run its branch on the bindings and nothing else, whatever the branches are;
    where none matches, they have no answer; and where a pattern cannot be compared with
    the value, that is the failure of all of them. -/
theorem dispatch_agrees_with_choice (t : Choice) (v : Value)
    (hcompile : ∀ k ∈ t.clauses, ∃ p, compilePattern k.source = .ok p) :
    ∃ d f, Dispatcher.ofCases (t.clauses.map Clause.case) = .ok d ∧
      t.toPartialFunction = .ok f ∧ d.definedAt v = f.definedAt v ∧
      matchFirst v (t.clauses.map Clause.case) = d.call v ∧
      ((∃ before k after bs, t.clauses = before ++ k :: after ∧ (∀ e ∈ before, e.Misses v) ∧
          k.Finds v bs ∧ f.definedAt v = .ok true ∧
          d.call v = k.branch bs ∧ f.call v = k.branch bs) ∨
        ((∀ k ∈ t.clauses, k.Misses v) ∧ f.definedAt v = .ok false ∧
          Unanswered (d.call v) .noCase v d.lastTried ∧
          Unanswered (f.call v) .outsideDomain v none) ∨
        ∃ before k after p fault, t.clauses = before ++ k :: after ∧
          (∀ e ∈ before, e.Misses v) ∧ compilePattern k.source = .ok p ∧
          p.definedAt v = .error fault ∧ f.definedAt v = .error (.fault fault) ∧
          d.call v = throw (.fault fault) ∧ f.call v = throw (.fault fault)) := by
  have : Nonempty CompiledPattern := ⟨⟨"", .anything none, [], none⟩⟩
  choose! compile hcompile using hcompile
  obtain ⟨f, hf, hchooses⟩ := t.exists_partialFunction hcompile
  have hd := ofCases_of_compiled hcompile
  have hmatch : matchFirst v (t.clauses.map Clause.case) =
      Dispatcher.call ⟨t.clauses.map (Clause.compiled compile), none⟩ v := by
    rw [matchFirst, hd]
    rfl
  replace hchooses := hchooses v
  have hsearch := firstCase?_search (t.clauses.map (Clause.compiled compile)) v
  generalize hcs : t.clauses.map (Clause.compiled compile) = cs at hd hmatch hchooses hsearch
  generalize hr : firstCase? cs v = r at hchooses hsearch
  have hdefined : Dispatcher.definedAt ⟨cs, none⟩ v = r.map (·.isSome) := by
    rw [Dispatcher.definedAt, hr]
    rfl
  refine ⟨_, f, hd, hf, ?_, hmatch, ?_⟩
  · rw [hdefined]
    cases hchooses with
    | found h _ | missed h | failed h => exact h.symm
  · cases hsearch with
    | selected before hbefore happlies =>
      cases hchooses with
      | found hdomain hbranch =>
        obtain ⟨front, k, rest, hclauses, rfl, rfl⟩ := clauses_of_split hcs
        rw [hclauses] at hcompile
        obtain ⟨hfront, hk⟩ := List.forall_mem_append.mp hcompile
        refine Or.inl ⟨front, k, rest, _, hclauses, misses_of_rejects hfront hbefore,
          Clause.finds_of_applies (hk k List.mem_cons_self) happlies, hdomain, ?_, ?_⟩
        · rw [Dispatcher.call_of_found (d := ⟨_, none⟩) hr]
          exact Dispatcher.run_done _ _
        · rw [PartialFunction.call_of_defined hdomain]
          exact (Program.done.inj hbranch).symm
    | exhausted hall =>
      cases hchooses with
      | missed hdomain =>
        subst hcs
        exact Or.inr (Or.inl ⟨misses_of_rejects hcompile hall, hdomain,
          Dispatcher.call_of_exhausted (d := ⟨_, none⟩) hr rfl,
          PartialFunction.call_of_undefined hdomain⟩)
    | failed before hbefore hfails =>
      cases hchooses with
      | failed hdomain =>
        obtain ⟨front, k, rest, hclauses, rfl, rfl⟩ := clauses_of_split hcs
        rw [hclauses] at hcompile
        obtain ⟨hfront, hk⟩ := List.forall_mem_append.mp hcompile
        obtain ⟨p, fault, hp, hfault, rfl⟩ :=
          Clause.faults_of_fails (hk k List.mem_cons_self) hfails
        exact Or.inr (Or.inr ⟨front, k, rest, p, fault, hclauses,
          misses_of_rejects hfront hbefore, hp, hfault, hdomain,
          Dispatcher.call_of_failed (d := ⟨_, none⟩) hr, PartialFunction.call_of_error hdomain⟩)

theorem Value.show_integer_of_not_writable {n : Int} (h : isWritableInteger n = false) :
    (integer n).show = .error .badValue := by
  change showInteger n = .error .badValue
  rw [showInteger, h]
  rfl

/-- Neither of two clauses matches an integer. With too many digits to be shown, it leaves
    the dispatcher and the choice with the failure to show it. -/
theorem dispatch_agrees_with_choice_unwritable :
    ∃ (t : Choice) (d : Dispatcher) (f : PartialFunction Run),
      t.clauses.map Clause.source = ["[]", "[x]"] ∧
      Dispatcher.ofCases (t.clauses.map Clause.case) = .ok d ∧ t.toPartialFunction = .ok f ∧
      d.call (.integer Value.writtenLimit) = throw (.fault .badValue) ∧
      f.call (.integer Value.writtenLimit) = throw (.fault .badValue) := by
  have hempty : ∃ p, compilePattern "[]" = .ok p ∧
      p.match? (.integer Value.writtenLimit) = .ok none := ⟨_, by cbv, rfl⟩
  have hone : ∃ p, compilePattern "[x]" = .ok p ∧
      p.match? (.integer Value.writtenLimit) = .ok none := ⟨_, by cbv, rfl⟩
  have hchoice : ∃ t : Choice, t.clauses.map Clause.source = ["[]", "[x]"] ∧
      ∀ k ∈ t.clauses, k.Misses (.integer Value.writtenLimit) := by
    refine ⟨.orElse (.clause ⟨"[]", fun _ => pure .none⟩)
      (.clause ⟨"[x]", fun bs => pure bs.toValue⟩), rfl, ?_⟩
    exact List.forall_mem_cons.mpr ⟨hempty, List.forall_mem_singleton.mpr hone⟩
  have hwritable : Value.isWritableInteger Value.writtenLimit = false := by
    have hself : ∀ n : Nat, decide ((n : Int).natAbs < n) = false := by simp
    rw [Value.isWritableInteger]
    exact hself Value.writtenLimit
  have hshow := Value.show_integer_of_not_writable hwritable
  obtain ⟨t, hsources, hmisses⟩ := hchoice
  obtain ⟨d, f, hd, hf, -, -, hcall⟩ :=
    dispatch_agrees_with_choice t (.integer Value.writtenLimit) fun k hk =>
      (hmisses k hk).imp fun p hp => hp.1
  refine ⟨t, d, f, hsources, hd, hf, ?_⟩
  rcases hcall with ⟨before, k, after, bs, hclauses, -, ⟨p, hp, hfound⟩, -⟩ |
    ⟨-, -, hdispatcher, hfunction⟩ | ⟨before, k, after, p, fault, hclauses, -, hp, hfault, -⟩
  · obtain ⟨q, hq, hmissed⟩ := hmisses k (by simp [hclauses])
    rw [hp] at hq
    cases hq
    rw [hfound] at hmissed
    cases hmissed
  · exact ⟨hdispatcher.2 _ hshow, hfunction.2 _ hshow⟩
  · obtain ⟨q, hq, hmissed⟩ := hmisses k (by simp [hclauses])
    rw [hp] at hq
    cases hq
    rw [CompiledPattern.match?, hfault] at hmissed
    cases hmissed

end Destructure
