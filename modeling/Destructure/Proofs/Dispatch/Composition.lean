/-
  Destructure/Proofs/Dispatch/Composition.lean
  ============================================
  **The algebra of partial functions** — choosing is associative and takes the left one
  where both are defined, composing changes no domain, and the two distribute. What comes
  of a call does not tell which functions were run on the way, so compositions are called
  once more with a record of them: those of one pipeline, which begins with the function
  of the first part that is defined, and none where there is no such part
  (`Composition.pipes`, one case for each way to compose).
-/
import Destructure.Dispatch.PartialFunction
import Destructure.Proofs.Dispatch.Choice
import Destructure.Proofs.Dispatch.Record

namespace Destructure

/-! ### Partial functions that cannot be told apart -/

/-- Whether two partial functions have the same domain at the value, and the same answer
    with a default and without. -/
structure PartialFunction.AgreesAt (f g : PartialFunction Run) (v : Value) : Prop where
  definedAt : f.definedAt v = g.definedAt v
  call : f.call v = g.call v
  callOrElse : ∀ default, f.callOrElse v default = g.callOrElse v default

namespace PartialFunction

variable {f f' g h : PartialFunction Run} {k : Responder} {v : Value}

/-- What stands behind a condition matters for the answers of the condition only. -/
theorem lift_bind_congr {α β : Type} {x : Except Failure α} {k l : α → Run β}
    (h : ∀ a, x = .ok a → k a = l a) : ((liftM x : Run α) >>= k) = (liftM x >>= l) := by
  cases x with
  | error e => rfl
  | ok a => exact h a rfl

/-- Functions matter where they are run. -/
theorem AgreesAt.of_definedAt (hdomain : f.definedAt v = g.definedAt v)
    (hfunction : f.definedAt v = .ok true → f.function v = g.function v) : f.AgreesAt g v := by
  refine ⟨hdomain, ?_, fun default => ?_⟩
  · rw [PartialFunction.call, PartialFunction.call, ← hdomain]
    refine lift_bind_congr fun b hb => ?_
    cases b with
    | false => rfl
    | true => exact hfunction hb
  · rw [PartialFunction.callOrElse, PartialFunction.callOrElse, ← hdomain]
    refine lift_bind_congr fun b hb => ?_
    cases b with
    | false => rfl
    | true => exact hfunction hb

theorem AgreesAt.function (hfg : f.AgreesAt g v) (hf : f.definedAt v = .ok true) :
    f.function v = g.function v := by
  rw [← call_of_defined hf, ← call_of_defined (hfg.definedAt ▸ hf), hfg.call]

theorem AgreesAt.symm (hfg : f.AgreesAt g v) : g.AgreesAt f v :=
  ⟨hfg.definedAt.symm, hfg.call.symm, fun default => (hfg.callOrElse default).symm⟩

theorem AgreesAt.trans (hfg : f.AgreesAt g v) (hgh : g.AgreesAt h v) : f.AgreesAt h v :=
  ⟨hfg.definedAt.trans hgh.definedAt, hfg.call.trans hgh.call,
    fun default => (hfg.callOrElse default).trans (hgh.callOrElse default)⟩

/-! ### Choosing -/

section AnyEffects

variable {m : Type → Type} [Monad m] [MonadExceptOf Failure m] [MonadLiftT (Except Failure) m]

theorem definedAt_orElse (f g : PartialFunction m) (v : Value) :
    (f.orElse g).definedAt v =
      (f.definedAt v >>= fun b => if b then pure true else g.definedAt v) := rfl

theorem function_orElse (f g : PartialFunction m) (v : Value) :
    (f.orElse g).function v =
      (liftM (f.definedAt v) >>= fun b => if b then f.function v else g.call v) := rfl

theorem call_eq (f : PartialFunction m) (v : Value) :
    f.call v = (liftM (f.definedAt v) >>= fun b =>
      if b then f.function v else throw (.unmatched .outsideDomain v none)) := rfl

end AnyEffects

/-- Where the first one is defined, or fails to say, it is the choice. -/
theorem orElse_agreesAt_left (hf : f.definedAt v ≠ .ok false) : (f.orElse g).AgreesAt f v := by
  refine .of_definedAt ?_ ?_
  · rw [definedAt_orElse]
    cases hdefined : f.definedAt v with
    | error e => rfl
    | ok b =>
      cases b with
      | false => exact absurd hdefined hf
      | true => rfl
  · intro hdefined
    rw [function_orElse]
    rw [definedAt_orElse] at hdefined
    obtain ⟨b, hb, -⟩ := bind_eq_ok_iff.mp hdefined
    cases b with
    | false => exact absurd hb hf
    | true =>
      rw [hb]
      rfl

/-- Where the first one is not defined, the second one is the choice. -/
theorem orElse_agreesAt_right (hf : f.definedAt v = .ok false) : (f.orElse g).AgreesAt g v := by
  have hdomain : (f.orElse g).definedAt v = g.definedAt v := by
    rw [definedAt_orElse, hf]
    rfl
  refine .of_definedAt hdomain ?_
  intro hdefined
  rw [function_orElse, hf]
  exact call_of_defined (hdomain ▸ hdefined)

theorem AgreesAt.orElse (hff' : f.AgreesAt f' v) (g : PartialFunction Run) :
    (f.orElse g).AgreesAt (f'.orElse g) v := by
  by_cases hf : f.definedAt v = .ok false
  · exact (orElse_agreesAt_right hf).trans (orElse_agreesAt_right (hff'.definedAt ▸ hf)).symm
  · exact ((orElse_agreesAt_left hf).trans hff').trans
      (orElse_agreesAt_left (hff'.definedAt ▸ hf)).symm

theorem orElse_assoc (f g h : PartialFunction Run) (v : Value) :
    ((f.orElse g).orElse h).AgreesAt (f.orElse (g.orElse h)) v := by
  by_cases hf : f.definedAt v = .ok false
  · exact ((orElse_agreesAt_right hf).orElse h).trans (orElse_agreesAt_right hf).symm
  · have hleft : (f.orElse g).AgreesAt f v := orElse_agreesAt_left hf
    exact (hleft.orElse h).trans ((orElse_agreesAt_left hf).trans (orElse_agreesAt_left hf).symm)

/-! ### Composing -/

theorem call_andThen (f : PartialFunction Run) (k : Responder) (v : Value) :
    (f.andThen k).call v = f.call v >>= k := by
  have hdomain : (f.andThen k).definedAt v = f.definedAt v := rfl
  rw [call, call, hdomain, bind_assoc]
  refine lift_bind_congr fun b _ => ?_
  cases b <;> rfl

theorem callOrElse_andThen_of_defined {default : Responder} (hf : f.definedAt v = .ok true) :
    (f.andThen k).callOrElse v default = f.call v >>= k := by
  have hdomain : (f.andThen k).definedAt v = .ok true := hf
  rw [callOrElse_of_defined hdomain, call_of_defined hf]
  rfl

/-- A default is not handed on. -/
theorem callOrElse_andThen_of_not_defined {default : Responder}
    (hf : f.definedAt v ≠ .ok true) :
    (f.andThen k).callOrElse v default = f.callOrElse v default := by
  have hdomain : (f.andThen k).definedAt v = f.definedAt v := rfl
  rw [callOrElse, callOrElse, hdomain]
  refine lift_bind_congr fun b hb => ?_
  cases b with
  | false => rfl
  | true => exact absurd hb hf

theorem andThen_andThen (f : PartialFunction Run) (j k : Responder) (v : Value) :
    ((f.andThen j).andThen k).AgreesAt (f.andThen fun w => j w >>= k) v := by
  refine .of_definedAt rfl fun _ => ?_
  exact bind_assoc (f.function v) j k

theorem AgreesAt.andThen (hfg : f.AgreesAt g v) (k : Responder) :
    (f.andThen k).AgreesAt (g.andThen k) v := by
  refine .of_definedAt hfg.definedAt fun hdefined => ?_
  exact congrArg (· >>= k) (hfg.function hdefined)

theorem orElse_andThen (f g : PartialFunction Run) (k : Responder) (v : Value) :
    ((f.orElse g).andThen k).AgreesAt ((f.andThen k).orElse (g.andThen k)) v := by
  by_cases hf : f.definedAt v = .ok false
  · have hfk : (f.andThen k).definedAt v = .ok false := hf
    exact ((orElse_agreesAt_right hf).andThen k).trans (orElse_agreesAt_right hfk).symm
  · have hfk : (f.andThen k).definedAt v ≠ .ok false := hf
    exact ((orElse_agreesAt_left hf).andThen k).trans (orElse_agreesAt_left hfk).symm

end PartialFunction

/-! ### Pipelines -/

/-- A function that is run, and what it is run on. -/
abbrev Use := Responder × Value

/-- Functions one behind another. -/
def runThrough (fs : List Responder) (v : Value) : Run Value :=
  fs.foldlM (fun w f => f w) v

/-- The functions that are run on the way, up to one that comes to no result. -/
def usesThrough : List Responder → Value → List Use
  | [], _ => []
  | f :: fs, v => (f, v) :: logBehind (f v) (usesThrough fs)

theorem runThrough_cons (f : Responder) (fs : List Responder) (v : Value) :
    runThrough (f :: fs) v = f v >>= runThrough fs := by
  rw [runThrough, List.foldlM_cons]
  rfl

theorem runThrough_singleton (f : Responder) (v : Value) : runThrough [f] v = f v :=
  (runThrough_cons f [] v).trans (bind_pure (f v))

theorem runThrough_concat (fs : List Responder) (k : Responder) (v : Value) :
    runThrough (fs ++ [k]) v = runThrough fs v >>= k := by
  rw [runThrough, List.foldlM_append]
  exact bind_congr fun w => bind_pure (k w)

theorem logBehind_nil {ι α : Type} (r : Run α) : logBehind r (fun _ => ([] : List ι)) = [] := by
  match r with
  | none | some (.error _) | some (.ok _) => rfl

theorem usesThrough_singleton (f : Responder) (v : Value) : usesThrough [f] v = [(f, v)] :=
  congrArg ((f, v) :: ·) (logBehind_nil (f v))

theorem usesThrough_concat (fs : List Responder) (k : Responder) (v : Value) :
    usesThrough (fs ++ [k]) v =
      usesThrough fs v ++ logBehind (runThrough fs v) fun w => [(k, w)] := by
  induction fs generalizing v with
  | nil => exact usesThrough_singleton k v
  | cons f fs ih =>
    rw [List.cons_append, usesThrough, usesThrough, runThrough_cons]
    match f v with
    | none | some (.error _) => rfl
    | some (.ok w) =>
      rw [logBehind, logBehind, ih]
      rfl

/-! ### Compositions -/

/-- Partial functions that have been composed. -/
inductive Composition where
  | given (f : PartialFunction Run)
  | andThen (t : Composition) (k : Responder)
  | orElse (first second : Composition)

/-- Runs a function, with a record of it. -/
def noted (f : Responder) (v : Value) : Recorded Use Value := do
  record (f, v)
  unrecorded (f v)

theorem noted_records (f : Responder) (v : Value) : Records (noted f v) (f v) [(f, v)] :=
  .behind_entry _ (.unrecorded _)

namespace Composition

/-- The partial functions that have been composed, from left to right. -/
def parts : Composition → List (PartialFunction Run)
  | given f => [f]
  | andThen t _ => t.parts
  | orElse first second => first.parts ++ second.parts

/-- What has been composed, with the given way to run the functions. -/
def build {m : Type → Type} [Monad m] [MonadExceptOf Failure m] [MonadLiftT (Except Failure) m]
    (run : Responder → Value → m Value) : Composition → PartialFunction m
  | given f => ⟨f.condition, run f.function⟩
  | andThen t k => (t.build run).andThen (run k)
  | orElse first second => (first.build run).orElse (second.build run)

def toPartialFunction (t : Composition) : PartialFunction Run := t.build fun f => f

/-- The composition with a record of the functions that are run. -/
def recorded (t : Composition) : PartialFunction (Recorded Use) := t.build noted

/-- Where the composition is defined does not depend on how functions are run. -/
theorem definedAt_recorded (t : Composition) (v : Value) :
    t.recorded.definedAt v = t.toPartialFunction.definedAt v := by
  induction t with
  | given f => rfl
  | andThen t k ih => exact ih
  | orElse first second ihfirst ihsecond =>
    rw [recorded, toPartialFunction, build, build, PartialFunction.definedAt_orElse,
      PartialFunction.definedAt_orElse]
    rw [recorded, toPartialFunction] at ihfirst ihsecond
    rw [ihfirst, ihsecond]

/-- What the composition comes to at the value: the function of the first part that is
    defined there, and those that are composed behind it. -/
def pipeline? : Composition → Value → Except Failure (Option (List Responder))
  | given f, v => do return if ← f.definedAt v then some [f.function] else none
  | andThen t k, v => do return (← t.pipeline? v).map (· ++ [k])
  | orElse first second, v => do
    match ← first.pipeline? v with
    | some fs => return some fs
    | none => second.pipeline? v

/-- At the value, the composition does what a pipeline does: it is defined and runs the
    functions of the pipeline, is not defined where there is none, and fails where the
    search for one did. -/
inductive Pipes (t : Composition) (v : Value) : Except Failure (Option (List Responder)) → Prop
  | answered {fs : List Responder} : t.toPartialFunction.definedAt v = .ok true →
      t.toPartialFunction.function v = runThrough fs v →
      Records (t.recorded.function v) (runThrough fs v) (usesThrough fs v) →
      t.Pipes v (.ok (some fs))
  | unanswered : t.toPartialFunction.definedAt v = .ok false → t.Pipes v (.ok none)
  | failed {e : Failure} : t.toPartialFunction.definedAt v = .error e → t.Pipes v (.error e)

theorem pipes_given (f : PartialFunction Run) (v : Value) :
    (given f).Pipes v ((given f).pipeline? v) := by
  rw [pipeline?]
  cases hf : f.definedAt v with
  | error e => exact .failed hf
  | ok b =>
    cases b with
    | false => exact .unanswered hf
    | true =>
      refine .answered hf (runThrough_singleton f.function v).symm ?_
      rw [runThrough_singleton, usesThrough_singleton]
      exact noted_records f.function v

variable {t first second : Composition} {v : Value}
  {r s : Except Failure (Option (List Responder))}

/-- A function that is composed behind runs on what comes out of the pipeline. -/
theorem Pipes.andThen (h : t.Pipes v r) (k : Responder) :
    (t.andThen k).Pipes v (r >>= fun fs => pure (fs.map (· ++ [k]))) := by
  cases h with
  | failed hdomain => exact .failed hdomain
  | unanswered hdomain => exact .unanswered hdomain
  | @answered fs hdomain hfunction hrecords =>
    have hfunction' : (t.andThen k).toPartialFunction.function v = runThrough (fs ++ [k]) v := by
      rw [runThrough_concat, ← hfunction]
      rfl
    refine .answered hdomain hfunction' ?_
    rw [runThrough_concat, usesThrough_concat]
    exact hrecords.bind fun w _ => noted_records k w

/-- Behind a condition that holds goes on what stands behind it. -/
theorem behind_condition {f : PartialFunction (Recorded Use)} {b : Bool} {x : Run Value}
    {k : Bool → Recorded Use Value} {uses : List Use} (hf : f.definedAt v = .ok b)
    (hk : Records (k b) x uses) :
    Records ((liftM (f.definedAt v) : Recorded Use Bool) >>= k) x uses := by
  rw [hf]
  exact (Records.lift (.ok b)).behind_result hk

theorem Pipes.orElse (hfirst : first.Pipes v r) (hsecond : second.Pipes v s) :
    (first.orElse second).Pipes v
      (r >>= fun fs => match fs with
        | some fs => pure (some fs)
        | none => s) := by
  have hcondition := PartialFunction.definedAt_orElse first.toPartialFunction
    second.toPartialFunction v
  have hfunction := PartialFunction.function_orElse first.toPartialFunction
    second.toPartialFunction v
  have hrecorded := first.definedAt_recorded v
  cases hfirst with
  | failed hdomain =>
    rw [hdomain] at hcondition
    exact .failed hcondition
  | answered hdomain hthrough hrecords =>
    rw [hdomain] at hcondition hfunction hrecorded
    exact .answered hcondition (hfunction.trans hthrough) (behind_condition hrecorded hrecords)
  | unanswered hdomain =>
    rw [hdomain] at hcondition hfunction hrecorded
    cases hsecond with
    | failed hdomain' => exact .failed (hcondition.trans hdomain')
    | unanswered hdomain' => exact .unanswered (hcondition.trans hdomain')
    | answered hdomain' hthrough hrecords =>
      have hcall := PartialFunction.call_of_defined hdomain'
      have hrecorded' := (second.definedAt_recorded v).trans hdomain'
      exact .answered (hcondition.trans hdomain') (hfunction.trans (hcall.trans hthrough))
        (behind_condition hrecorded (behind_condition hrecorded' hrecords))

theorem pipes (t : Composition) (v : Value) : t.Pipes v (t.pipeline? v) := by
  induction t with
  | given f => exact pipes_given f v
  | andThen t k ih => exact ih.andThen k
  | orElse first second ihfirst ihsecond => exact ihfirst.orElse ihsecond

/-- What the search for a part that is defined comes to: it stops at the first one that
    is, or that fails to say. -/
inductive Finds (v : Value) :
    List (PartialFunction Run) → Except Failure (Option (List Responder)) → Prop
  | found (before : List (PartialFunction Run)) {after : List (PartialFunction Run)}
      {f : PartialFunction Run} {later : List Responder} :
      (∀ g ∈ before, g.definedAt v = .ok false) → f.definedAt v = .ok true →
      Finds v (before ++ f :: after) (.ok (some (f.function :: later)))
  | missed {fs : List (PartialFunction Run)} :
      (∀ g ∈ fs, g.definedAt v = .ok false) → Finds v fs (.ok none)
  | failed (before : List (PartialFunction Run)) {after : List (PartialFunction Run)}
      {f : PartialFunction Run} {e : Failure} :
      (∀ g ∈ before, g.definedAt v = .ok false) → f.definedAt v = .error e →
      Finds v (before ++ f :: after) (.error e)

theorem Finds.andThen {fs : List (PartialFunction Run)} (h : Finds v fs r) (k : Responder) :
    Finds v fs (r >>= fun fs => pure (fs.map (· ++ [k]))) := by
  cases h with
  | found before hbefore hf => exact .found before hbefore hf
  | missed hall => exact .missed hall
  | failed before hbefore hf => exact .failed before hbefore hf

theorem Finds.orElse {fs gs : List (PartialFunction Run)} (hfirst : Finds v fs r)
    (hsecond : Finds v gs s) :
    Finds v (fs ++ gs)
      (r >>= fun fs => match fs with
        | some fs => pure (some fs)
        | none => s) := by
  cases hfirst with
  | found before hbefore hf =>
    rw [List.append_assoc]
    exact .found before hbefore hf
  | failed before hbefore hf =>
    rw [List.append_assoc]
    exact .failed before hbefore hf
  | missed hall =>
    cases hsecond with
    | found before hbefore hf =>
      rw [← List.append_assoc]
      exact .found (fs ++ before) (List.forall_mem_append.mpr ⟨hall, hbefore⟩) hf
    | missed hall' => exact .missed (List.forall_mem_append.mpr ⟨hall, hall'⟩)
    | failed before hbefore hf =>
      rw [← List.append_assoc]
      exact .failed (fs ++ before) (List.forall_mem_append.mpr ⟨hall, hbefore⟩) hf

theorem finds (t : Composition) (v : Value) : Finds v t.parts (t.pipeline? v) := by
  induction t with
  | given f =>
    rw [pipeline?, parts]
    cases hf : f.definedAt v with
    | error e => exact .failed [] (by simp) hf
    | ok b =>
      cases b with
      | false => exact .missed (List.forall_mem_singleton.mpr hf)
      | true => exact .found [] (by simp) hf
  | andThen t k ih => exact ih.andThen k
  | orElse first second ihfirst ihsecond => exact ihfirst.orElse ihsecond

/-- What a call of a composition comes to, and the functions that it runs. -/
inductive Answers (t : Composition) (v : Value) : Run Value → List Use → Prop
  /-- The function of the first part that is defined answers, and what is composed behind
      it. -/
  | answered {before after : List (PartialFunction Run)} {f : PartialFunction Run}
      {later : List Responder} : t.parts = before ++ f :: after →
      (∀ g ∈ before, g.definedAt v = .ok false) → f.definedAt v = .ok true →
      t.pipeline? v = .ok (some (f.function :: later)) →
      t.toPartialFunction.definedAt v = .ok true →
      t.Answers v (f.function v >>= runThrough later) (usesThrough (f.function :: later) v)
  /-- No part is defined, and no function is run. -/
  | unanswered {r : Run Value} : (∀ g ∈ t.parts, g.definedAt v = .ok false) →
      t.toPartialFunction.definedAt v = .ok false → Unanswered r .outsideDomain v none →
      t.Answers v r []
  /-- A condition fails before a part is found to be defined, and no function is run. -/
  | failed {before after : List (PartialFunction Run)} {f : PartialFunction Run}
      {e : Failure} : t.parts = before ++ f :: after →
      (∀ g ∈ before, g.definedAt v = .ok false) → f.definedAt v = .error e →
      t.toPartialFunction.definedAt v = .error e → t.Answers v (throw e) []

theorem Answers.uses_eq_nil_iff {t : Composition} {uses : List Use} {r : Run Value}
    (h : t.Answers v r uses) : uses = [] ↔ t.toPartialFunction.definedAt v ≠ .ok true := by
  cases h with
  | answered _ _ _ _ hdomain => simp [usesThrough, hdomain]
  | unanswered _ hdomain => simp [hdomain]
  | failed _ _ _ hdomain => simp [hdomain]

/-- A call comes to what it comes to with a record, and runs one pipeline at most. -/
theorem call_records (t : Composition) (v : Value) :
    ∃ uses, Records (t.recorded.call v) (t.toPartialFunction.call v) uses ∧
      t.Answers v (t.toPartialFunction.call v) uses := by
  have hpipes := t.pipes v
  have hfinds := t.finds v
  have hrecorded := t.definedAt_recorded v
  generalize hparts : t.parts = fs at hfinds
  generalize hr : t.pipeline? v = r at hpipes hfinds
  cases hpipes with
  | answered hdomain hfunction hrecords =>
    rw [hdomain] at hrecorded
    cases hfinds with
    | @found before after f later hbefore hf =>
      have hcall := (PartialFunction.call_of_defined hdomain).trans hfunction
      refine ⟨usesThrough (f.function :: later) v, ?_, ?_⟩
      · rw [hcall]
        exact behind_condition hrecorded hrecords
      · rw [hcall, runThrough_cons]
        exact .answered hparts hbefore hf hr hdomain
  | unanswered hdomain =>
    rw [hdomain] at hrecorded
    cases hfinds with
    | missed hall =>
      subst hparts
      refine ⟨[], ?_, .unanswered hall hdomain (PartialFunction.call_of_undefined hdomain)⟩
      rw [PartialFunction.call_eq t.toPartialFunction, hdomain]
      exact behind_condition hrecorded (.failure _)
  | failed hdomain =>
    rw [hdomain] at hrecorded
    cases hfinds with
    | failed before hbefore hf =>
      rw [PartialFunction.call_of_error hdomain]
      refine ⟨[], ?_, .failed hparts hbefore hf hdomain⟩
      rw [PartialFunction.call_eq, hrecorded]
      exact (Records.lift _).behind_failure

end Composition

/-- The laws of partial functions, whatever fails in them. Choosing is associative; the
    choice is the first one where that is defined or fails to say, and the second one
    elsewhere. A function that is composed behind changes no domain and runs on what the
    partial function has answered, but not on a default. Functions that are composed one
    after another can be composed at once, and behind a choice as well as behind each side
    of it. And a call of any composition runs the function of the first part that is
    defined and what is composed behind it, or no function: then a condition has failed,
    or there is no answer. -/
theorem partial_functions_compose (f g h : PartialFunction Run) (j k : Responder)
    (t : Composition) (v : Value) :
    ((f.orElse g).orElse h).AgreesAt (f.orElse (g.orElse h)) v ∧
    (f.definedAt v ≠ .ok false → (f.orElse g).AgreesAt f v) ∧
    (f.definedAt v = .ok false → (f.orElse g).AgreesAt g v) ∧
    (f.andThen k).definedAt v = f.definedAt v ∧ (f.andThen k).call v = f.call v >>= k ∧
    (∀ default,
      (f.definedAt v = .ok true → (f.andThen k).callOrElse v default = f.call v >>= k) ∧
      (f.definedAt v ≠ .ok true →
        (f.andThen k).callOrElse v default = f.callOrElse v default)) ∧
    ((f.andThen j).andThen k).AgreesAt (f.andThen fun w => j w >>= k) v ∧
    ((f.orElse g).andThen k).AgreesAt ((f.andThen k).orElse (g.andThen k)) v ∧
    ∃ uses, Records (t.recorded.call v) (t.toPartialFunction.call v) uses ∧
      t.Answers v (t.toPartialFunction.call v) uses ∧
      (uses = [] ↔ t.toPartialFunction.definedAt v ≠ .ok true) := by
  refine ⟨f.orElse_assoc g h v, PartialFunction.orElse_agreesAt_left,
    PartialFunction.orElse_agreesAt_right, rfl, f.call_andThen k v, ?_,
    f.andThen_andThen j k v, f.orElse_andThen g k v, ?_⟩
  · intro default
    exact ⟨PartialFunction.callOrElse_andThen_of_defined,
      PartialFunction.callOrElse_andThen_of_not_defined⟩
  · obtain ⟨uses, hrecords, hanswers⟩ := t.call_records v
    exact ⟨uses, hrecords, hanswers, hanswers.uses_eq_nil_iff⟩

end Destructure
