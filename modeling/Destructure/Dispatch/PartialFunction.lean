/-
  Destructure/Dispatch/PartialFunction.lean
  =========================================
  **Partial functions** — a function together with the condition that says where
  it is defined. A call elsewhere fails before the function is run. Partial
  functions are composed with functions behind them and chosen between; of two
  that are both defined, the left one answers.

  All of this is written for functions with any effects, so that it can be watched
  which of them are run.

  Mirrors `PartialFunction` of the program and
  `CaseMatcher.to_partial_function`.
-/
import Destructure.Dispatch.Basic

namespace Destructure

/-- A function and its domain. -/
structure PartialFunction (m : Type → Type) where
  condition : Value → Except Failure Bool
  function : Value → m Value

namespace PartialFunction

variable {m : Type → Type} [Monad m] [MonadExceptOf Failure m] [MonadLiftT (Except Failure) m]

/-- Defined where a pattern matches; the branch is run on the bindings. -/
def ofPattern (p : CompiledPattern) (branch : Bindings → m Value) : PartialFunction m where
  condition v := orFault (p.definedAt v)
  function v := do branch (← p.bindings v)

/-- Whether the value is in the domain. -/
def definedAt (f : PartialFunction m) (v : Value) : Except Failure Bool := f.condition v

def call (f : PartialFunction m) (v : Value) : m Value := do
  if ← f.definedAt v then f.function v
  else throw (.unmatched .outsideDomain v none : Failure)

def callOrElse (f : PartialFunction m) (v : Value) (default : Value → m Value) : m Value := do
  if ← f.definedAt v then f.function v else default v

/-- The same domain, another function behind. -/
def andThen (f : PartialFunction m) (g : Value → m Value) : PartialFunction m where
  condition := f.condition
  function v := do g (← f.function v)

def orElse (f g : PartialFunction m) : PartialFunction m where
  condition v := do
    if ← f.definedAt v then return true else g.definedAt v
  function v := do
    if ← f.definedAt v then f.function v else g.call v

end PartialFunction

def Dispatcher.toPartialFunction (d : Dispatcher) : PartialFunction Run where
  condition := d.definedAt
  function := d.call

end Destructure
