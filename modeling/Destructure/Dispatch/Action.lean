/-
  Destructure/Dispatch/Action.lean
  ================================
  **Actions** — a small language of functions, branches, guards and conditions,
  for dispatchers and partial functions that are written down as data. Each form
  has an evaluation into what it stands for. A branch can go back to its
  dispatcher with what it has captured and combine the answers.

  Mirrors functions that a caller of the program might hand in.
-/
import Destructure.Dispatch.PartialFunction
import Destructure.Value.Arithmetic

namespace Destructure

/-! ### Functions -/

/-- Functions of one value. -/
inductive Action where
  | identity
  | constant (v : Value)
  /-- The value in a list. -/
  | wrap
  /-- The value in a list behind a text. -/
  | tag (s : String)
  | count
  | total
  | negate
  | plus (v : Value)
  | times (v : Value)
  | fail
  /-- A call of a partial function. -/
  | call (f : PartialFunction Run)

def Action.run : Action → Responder
  | identity, v => pure v
  | constant w, _ => pure w
  | wrap, v => pure (.list [v])
  | tag s, v => pure (.list [.string s, v])
  | count, v => liftM (orFault (v.count.map .integer))
  | total, v => liftM (orFault v.total)
  | negate, v => liftM (orFault v.neg)
  | plus w, v => liftM (orFault (v.add w))
  | times w, v => liftM (orFault (v.mul w))
  | fail, _ => throw (.fault .badValue)
  | call f, v => f.call v

/-! ### Branches -/

/-- Branches of a case. -/
inductive BranchAction where
  /-- The bindings as a dictionary. -/
  | bindings
  | pick (name : String)
  | constant (v : Value)
  | apply (name : String) (f : Action)
  | fail
  | recur (name : String)
  /-- What is captured, added to the answer for the rest. -/
  | recurSum (head tail : String)
  /-- One more than the answer for the rest. -/
  | recurCount (tail : String)
  /-- The answer for the rest, with what is captured behind it. -/
  | recurReverse (head tail : String)
  /-- The sum of the answers for two parts. -/
  | recurBoth (left right : String)

def Bindings.get (bs : Bindings) (name : String) : Except Failure Value :=
  match bs.lookup name with
  | some v => .ok v
  | none => .error (.fault .missingKey)

def BranchAction.run : BranchAction → Branch
  | bindings, bs => pure bs.toValue
  | pick name, bs => liftM (bs.get name)
  | constant v, _ => pure v
  | apply name f, bs => do .done (f.run (← bs.get name))
  | fail, _ => .done (throw (.fault .badValue))
  | recur name, bs => do .again (← bs.get name)
  | recurSum head tail, bs => do
    let v ← bs.get head
    let w ← .again (← bs.get tail)
    orFault (v.add w)
  | recurCount tail, bs => do
    let w ← .again (← bs.get tail)
    orFault ((Value.integer 1).add w)
  | recurReverse head tail, bs => do
    let w ← .again (← bs.get tail)
    let v ← bs.get head
    orFault (w.add (.list [v]))
  | recurBoth left right, bs => do
    let v ← .again (← bs.get left)
    let w ← .again (← bs.get right)
    orFault (v.add w)

def BranchAction.runAlone (b : BranchAction) (bs : Bindings) : Run Value := (b.run bs).alone

/-! ### Guards and conditions -/

/-- Guards over bindings. -/
inductive GuardAction where
  /-- What is captured is in a relation to a value. -/
  | compare (r : Relation) (name : String) (v : Value)
  | truthy (name : String)
  | always
  | never

def GuardAction.run : GuardAction → Guard
  | compare r name v, bs => do orFault (Value.related r (← bs.get name) v)
  | truthy name, bs => do orFault (← bs.get name).truth
  | always, _ => .ok true
  | never, _ => .ok false

/-- Conditions on a value. -/
inductive ConditionAction where
  /-- The value is in a relation to another one. -/
  | compare (r : Relation) (v : Value)
  | pattern (p : CompiledPattern)
  /-- The truth of the value. -/
  | self
  | always
  | never
  | fail

def ConditionAction.run : ConditionAction → Value → Except Failure Bool
  | compare r w, v => orFault (Value.related r v w)
  | pattern p, v => orFault (p.definedAt v)
  | self, v => orFault v.truth
  | always, _ => .ok true
  | never, _ => .ok false
  | fail, _ => .error (.fault .badValue)

end Destructure
