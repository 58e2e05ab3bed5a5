/-
  Destructure/Dispatch/Program.lean
  =================================
  **Functions that are handed in** — what the branches of a dispatcher, its fallback
  and the functions of partial functions do is not known here. Running one comes to a
  result, to a failure, or to no end (`Run`). A branch or a fallback may call the
  dispatcher that it stands in, as often as it likes, and go on with what comes of
  that (`Program`).

  Mirrors the branches, fallbacks and functions that callers hand to
  `CaseMatcher` and `PartialFunction` of the program.
-/
import Destructure.Failure

namespace Destructure

/-- What comes of running something: a result or a failure, or nothing where it does
    not come to an end. -/
abbrev Run (α : Type) := ExceptT Failure Option α

/-- A function of one value. -/
abbrev Responder := Value → Run Value

/-- What a function does that may call its dispatcher: it comes to an outcome, or calls
    the dispatcher on a value and goes on with the result or the failure. -/
inductive Program (α : Type) where
  | done (outcome : Run α)
  | call (v : Value) (next : Except Failure Value → Program α)

namespace Program

variable {α β : Type}

/-- One program behind another, which takes up the result of the first. -/
def bind : Program α → (α → Program β) → Program β
  | done none, _ => done none
  | done (some (.error e)), _ => done (throw e)
  | done (some (.ok a)), k => k a
  | call v next, k => call v fun r => (next r).bind k

instance : Monad Program where
  pure a := done (pure a)
  bind := bind

instance : MonadLift (Except Failure) Program := ⟨fun r => done (liftM r)⟩

/-- Calls the dispatcher and hands on what comes of that. -/
def again (v : Value) : Program Value := call v fun r => done (liftM r)

/-- What comes of the program where there is no dispatcher to call. -/
def alone : Program α → Run α
  | done r => r
  | call _ next => (next (.error (.fault .wrongType))).alone

end Program

end Destructure
