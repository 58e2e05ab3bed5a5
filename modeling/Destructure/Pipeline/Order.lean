/-
  Destructure/Pipeline/Order.lean
  ===============================
  **Ordering by requirements** — things that require each other by name are put
  into an order in which each comes behind what it requires. Those that require
  nothing come first, in the order given; taking one off the queue settles one
  requirement of each thing that names it, and what has none left joins the
  queue. If some are never reached, or a name is given twice, there is no order.

  Mirrors `PassManager._topological_sort` of the program.
-/

namespace Destructure

/-- A name and the names that it requires. -/
structure Requirement where
  name : String
  requires : List String
deriving DecidableEq, Repr

namespace Requirement

/-- The names without repetitions, at their first places. -/
def distinct (names : List String) : List String :=
  names.foldl (fun seen n => if seen.contains n then seen else seen ++ [n]) []

abbrev Waiting := List (String × Int)

/-- What is known when some names have been put in order. -/
structure Progress where
  waiting : Waiting
  queue : List String
  ordered : List String

/-- How many requirements each name waits for at the beginning. -/
def initialWaiting (rs : List Requirement) : Waiting :=
  (distinct (rs.map (·.name))).map fun n =>
    (n, ((rs.find? (·.name == n)).map fun r => (distinct r.requires).length).getD 0)

/-- One requirement of a name is settled; the name joins the queue when that was
    the last. -/
def settle (p : Progress) (name : String) : Progress :=
  match p.waiting.lookup name with
  | none => p
  | some n =>
    let waiting := p.waiting.map fun (m, k) => (m, if m == name then k - 1 else k)
    { p with waiting, queue := if n - 1 = 0 then p.queue ++ [name] else p.queue }

def requiresOf (rs : List Requirement) (name other : String) : Bool :=
  match rs.find? (·.name == name) with
  | some r => r.requires.contains other
  | none => false

/-- Takes names off the queue, as many as the fuel allows. -/
def advance (rs : List Requirement) : Nat → Progress → Progress
  | 0, p => p
  | fuel + 1, p =>
    match p.queue with
    | [] => p
    | name :: queue =>
      let dependents := rs.filter fun r => requiresOf rs r.name name
      let p := { p with queue, ordered := p.ordered ++ [name] }
      advance rs fuel (dependents.foldl (fun p r => settle p r.name) p)

/-- The names in an order in which each comes behind those that it requires, if
    there is one. Each name leaves the queue once at most, so their number is
    fuel enough. -/
def order? (rs : List Requirement) : Option (List String) :=
  let waiting := initialWaiting rs
  let ready := (waiting.filter (·.2 == 0)).map (·.1)
  let p := advance rs rs.length ⟨waiting, ready, []⟩
  if p.ordered.length = rs.length then some p.ordered else none

end Requirement

end Destructure
