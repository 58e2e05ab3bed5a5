/-
  Destructure/Pattern/Violation.lean
  ==================================
  **Rules beyond the grammar** — a splat has to close its array, and a name may
  be bound once only in a pattern. `Pattern.violations` finds all breaches in the
  order in which a reader meets them; a splat that other items follow is reported
  before its own name is looked at. The names that are bound come out of the same
  walk, each once, in the order of their first occurrence.

  Mirrors `PatternValidationVisitor` of the program.
-/
import Destructure.Diagnostic.Basic
import Destructure.Pattern.Basic

namespace Destructure

/-- A breach of a rule. -/
inductive Violation where
  | splatNotLast (splat : Splat)
  | repeatedName (name first : Name)
deriving DecidableEq, Repr

/-- What a walk has come upon: the names bound so far and the breaches so far,
    both in source order. -/
structure Findings where
  names : List Name
  violations : List Violation
deriving DecidableEq, Repr

namespace Findings

def none : Findings := ⟨[], []⟩

def breach (f : Findings) (v : Violation) : Findings :=
  { f with violations := f.violations ++ [v] }

def bind (f : Findings) (n : Name) : Findings :=
  match f.names.find? (·.text == n.text) with
  | some first => f.breach (.repeatedName n first)
  | Option.none => { f with names := f.names ++ [n] }

end Findings

def Splat.check (f : Findings) : Splat → Findings
  | named _ name => f.bind name
  | anonymous _ => f

section Check

variable {α : Type}

/-- The findings about an item that others follow, before it is looked into. -/
def Item.checkFollowed (f : Findings) : Item α → Findings
  | .pattern _ => f
  | .splat s => f.breach (.splatNotLast s)

mutual

/-- The findings behind a pattern. -/
def Pattern.check (f : Findings) : Pattern α → Findings
  | .literal .. | .empty _ => f
  | .name n => f.bind n
  | .array _ es => es.check f

def Elements.check (f : Findings) : Elements α → Findings
  | .one _ i => i.check f
  | .more _ i c => c.check (i.check (i.checkFollowed f))

def Item.check (f : Findings) : Item α → Findings
  | .pattern p => p.check f
  | .splat s => s.check f

def Chain.check (f : Findings) : Chain α → Findings
  | .link _ i c => c.check (i.check (i.checkFollowed f))
  | .last _ p => p.check f
  | .lastSplat _ s => s.check f

end

/-- All that a walk through the pattern finds. -/
def Pattern.findings (p : Pattern α) : Findings := p.check .none

/-- The breaches of a pattern in source order. -/
def Pattern.violations (p : Pattern α) : List Violation := p.findings.violations

/-- The names that a pattern binds, in source order. -/
def Pattern.names (p : Pattern α) : List String := p.findings.names.map (·.text)

end Check

def Violation.diagnostic (source sourceName : String) : Violation → Diagnostic
  | splatNotLast s =>
    let span := s.extent.within source
    { message := "splat must be the last element of an array pattern"
      span := some span
      code := some "E0101"
      help := some ("move `" ++ span.text ++ "` to the end of the pattern")
      note := some "an array pattern may contain at most one splat"
      label := some "followed by more elements"
      sourceName }
  | repeatedName n first =>
    { message := "identifier `" ++ n.text ++ "` is bound more than once in the same pattern"
      span := some (n.extent.within source)
      code := some "E0102"
      help := some "use a different name for each captured value"
      note := some ("first bound at " ++ (first.extent.within source).position)
      label := some "bound again here"
      sourceName }

end Destructure
