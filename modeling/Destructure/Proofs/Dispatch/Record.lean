/-
  Destructure/Proofs/Dispatch/Record.lean
  =======================================
  **Actions with a record** — what comes of running something does not tell what was run
  on the way. An action with a record says so, one entry after another, and keeps them
  where it fails or does not come to an end. `Records` ties such an action to what comes
  of it and to its entries; there is one rule for each way to put actions together, and
  what is written for any effects is watched by these rules alone.
-/
import Destructure.Dispatch.Program

namespace Destructure

/-- An action with a record. -/
abbrev Recorded (ι α : Type) := ExceptT Failure (OptionT (StateM (List ι))) α

variable {ι α β : Type}

def record (i : ι) : Recorded ι Unit := modify fun log => log ++ [i]

/-- Runs something, of which nothing is recorded. -/
def unrecorded (r : Run α) : Recorded ι α := ExceptT.mk (OptionT.mk (pure r))

/-- The entries behind a run: they hang on its result, and there are none without one. -/
def logBehind (r : Run α) (log : α → List ι) : List ι :=
  match r with
  | none | some (.error _) => []
  | some (.ok a) => log a

/-- The action comes to the outcome and adds the entries to the record. -/
def Records (x : Recorded ι α) (r : Run α) (log : List ι) : Prop :=
  ∀ before, x.run.run.run before = (r, before ++ log)

namespace Records

variable {x : Recorded ι α} {k : α → Recorded ι β} {r : Run α} {s : α → Run β}
  {log : List ι} {later : α → List ι}

theorem entry (i : ι) : Records (record i) (Pure.pure ()) [i] := fun _ => rfl

theorem unrecorded (r : Run α) : Records (unrecorded r : Recorded ι α) r [] := by
  intro before
  rw [List.append_nil]
  rfl

theorem lift (r : Except Failure α) : Records (liftM r : Recorded ι α) (liftM r) [] := by
  intro before
  rw [List.append_nil]
  rfl

theorem result (a : α) : Records (Pure.pure a : Recorded ι α) (Pure.pure a) [] := lift (.ok a)

theorem failure (f : Failure) : Records (throw f : Recorded ι α) (throw f) [] := lift (.error f)

/-- What stands behind an action adds its entries to those of the action, if the action
    comes to a result. -/
theorem bind (hx : Records x r log)
    (hk : ∀ a, r = Pure.pure a → Records (k a) (s a) (later a)) :
    Records (x >>= k) (r >>= s) (log ++ logBehind r later) := by
  intro before
  rw [ExceptT.run_bind, OptionT.run_bind, Option.elimM, StateT.run_bind, hx before]
  match r with
  | none =>
    rw [logBehind, List.append_nil]
    rfl
  | some (.error f) =>
    rw [logBehind, List.append_nil]
    rfl
  | some (.ok a) =>
    rw [logBehind, ← List.append_assoc]
    exact hk a rfl (before ++ log)

theorem behind_result {a : α} {t : Run β} {entries : List ι} (hx : Records x (Pure.pure a) log)
    (hk : Records (k a) t entries) : Records (x >>= k) t (log ++ entries) := by
  change Records (x >>= k) (Pure.pure a >>= fun _ => t)
    (log ++ logBehind (Pure.pure a) fun _ => entries)
  refine hx.bind ?_
  intro a' ha
  cases ha
  exact hk

/-- What has nothing recorded adds no entries. -/
theorem behind_result_nil {a : α} {t : Run β} (hx : Records x (Pure.pure a) log)
    (hk : Records (k a) t []) : Records (x >>= k) t log := by
  have h := hx.behind_result hk
  rwa [List.append_nil] at h

theorem behind_failure {f : Failure} (hx : Records x (throw f) log) :
    Records (x >>= k) (throw f) log := by
  have hnone : log ++ logBehind (throw f : Run α) (fun _ => []) = log := List.append_nil log
  rw [← hnone]
  change Records (x >>= k) ((throw f : Run α) >>= fun _ => throw f) _
  refine hx.bind ?_
  intro a ha
  cases ha

/-- An entry stands in front of those of what comes behind it. -/
theorem behind_entry (i : ι) {y : Recorded ι β} {t : Run β} (hy : Records y t log) :
    Records (record i >>= fun _ => y) t (i :: log) :=
  (entry i).behind_result hy

end Records

end Destructure
