/-
  Destructure/Dispatch/Basic.lean
  ===============================
  **Dispatchers** — an ordered list of cases, each a pattern, an optional guard
  over its bindings and a branch to run on them, and an optional fallback. Called
  on a value, a dispatcher runs the branch of the first case whose pattern
  matches and whose guard agrees; without such a case the fallback; and fails
  where there is none, showing the last pattern that was tried.

  The search for the one who answers is written for any way to ask the patterns and
  the guards, for it can be watched (`Inquiry`). A call asks them and nothing else.
  A branch may call the dispatcher again; such calls need not come to an end.

  Mirrors `Case`, `CaseMatcher.defined_at`, `CaseMatcher.__call__`,
  `CaseMatcher._no_match`, `matcher` and `match` of the program.
-/
import Destructure.Compile.Compilation
import Destructure.Dispatch.Program

namespace Destructure

/-- What is run on the bindings of a case. -/
abbrev Branch := Bindings → Program Value

/-- What is run on a value that no case applies to. -/
abbrev Fallback := Value → Program Value

abbrev Guard := Bindings → Except Failure Bool

/-- A pattern as it may be given: by its text, or compiled. -/
inductive PatternSource where
  | text (source : String)
  | compiled (p : CompiledPattern)

def PatternSource.resolve : PatternSource → Except Failure CompiledPattern
  | text source => compilePattern source
  | compiled p => .ok p

/-! ### Cases -/

/-- A pattern, a guard and a branch. -/
structure Case where
  pattern : CompiledPattern
  branch : Branch
  guard : Option Guard

def Case.show (c : Case) : String := "Case(" ++ quoted c.pattern.source ++ ")"

/-- What a search asks, and the kind of answer to it. -/
inductive Question : Type → Type where
  | pattern (p : CompiledPattern) (v : Value) : Question (Option Bindings)
  | guard (g : Guard) (bs : Bindings) : Question Bool

def Question.answer {α : Type} : Question α → Except Failure α
  | pattern p v => p.match? v
  | guard g bs => g bs

/-- A way to ask. -/
abbrev Inquiry (m : Type → Type) := {α : Type} → Question α → m α

section Search

variable {m : Type → Type} [Monad m]

/-- The bindings of a value that the case applies to. -/
def Case.selectBy (ask : Inquiry m) (c : Case) (v : Value) : m (Option Bindings) := do
  match ← ask (.pattern c.pattern v), c.guard with
  | none, _ => return none
  | some bs, none => return some bs
  | some bs, some guard => if ← ask (.guard guard bs) then return some bs else return none

/-- The first case that applies, with the bindings. -/
def firstCaseBy? (ask : Inquiry m) : List Case → Value → m (Option (Case × Bindings))
  | [], _ => return none
  | c :: cs, v => do
    match ← c.selectBy ask v with
    | some bs => return some (c, bs)
    | none => firstCaseBy? ask cs v

end Search

def Case.select (c : Case) (v : Value) : Except Failure (Option Bindings) :=
  c.selectBy Question.answer v

def firstCase? (cs : List Case) (v : Value) : Except Failure (Option (Case × Bindings)) :=
  firstCaseBy? Question.answer cs v

/-! ### Dispatchers -/

/-- Cases in their order, and what to do where none applies. -/
structure Dispatcher where
  cases : List Case
  fallback : Option Fallback

/-- Who answers a value: the branch of a case on bindings, or the fallback. -/
inductive Answerer where
  | branch (run : Branch) (bs : Bindings)
  | fallback (run : Fallback) (v : Value)

def Answerer.program : Answerer → Program Value
  | branch run bs => run bs
  | fallback run v => run v

namespace Dispatcher

def empty : Dispatcher := ⟨[], none⟩

def register (d : Dispatcher) (pattern : PatternSource) (branch : Branch)
    (guard : Option Guard) : Except Failure Dispatcher := do
  let p ← pattern.resolve
  return { d with cases := d.cases ++ [⟨p, branch, guard⟩] }

def withFallback (d : Dispatcher) (fallback : Fallback) : Dispatcher :=
  { d with fallback := some fallback }

def ofCases (cases : List (PatternSource × Branch)) : Except Failure Dispatcher :=
  cases.foldlM (fun d (pattern, branch) => d.register pattern branch none) empty

/-- Whether a call on the value would be answered. -/
def definedAt (d : Dispatcher) (v : Value) : Except Failure Bool :=
  if d.fallback.isSome then .ok true
  else (firstCase? d.cases v).map (·.isSome)

/-- The place of the pattern that was tried last, if it comes from a text. -/
def lastTried (d : Dispatcher) : Option Span :=
  match d.cases.getLast? with
  | some c => c.pattern.tree.map fun t => t.extent.within c.pattern.source
  | none => none

/-- The failure where no case applies. -/
def exhausted (d : Dispatcher) (v : Value) : Failure := .unmatched .noCase v d.lastTried

/-- Who answers the value; there is a failure if nobody does. -/
def answererBy {m : Type → Type} [Monad m] [MonadExceptOf Failure m] (ask : Inquiry m)
    (d : Dispatcher) (v : Value) : m Answerer := do
  match ← firstCaseBy? ask d.cases v, d.fallback with
  | some (c, bs), _ => return .branch c.branch bs
  | none, some fallback => return .fallback fallback v
  | none, none => throw (d.exhausted v)

def answerer (d : Dispatcher) (v : Value) : Except Failure Answerer :=
  d.answererBy Question.answer v

/-- Runs a program that calls the dispatcher. Each call runs the one who answers, and
    the program goes on with what comes of that. -/
def run (d : Dispatcher) (p : Program Value) : Run Value :=
  -- a recursive call that is written out would keep its place in the file
  letI again : Program Value → Run Value := by apply run d
  match p with
  | .done r => r
  | .call v next =>
    (do let r ← (d.answerer v >>= fun a => again a.program : Run Value).run
        (again (next r)).run : Option (Except Failure Value))
partial_fixpoint

/-- Calls a dispatcher on a value. -/
def call (d : Dispatcher) (v : Value) : Run Value := do
  d.run (← d.answerer v).program

end Dispatcher

def matchFirst (v : Value) (cases : List (PatternSource × Branch)) : Run Value := do
  (← Dispatcher.ofCases cases).call v

end Destructure
