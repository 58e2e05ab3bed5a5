/-
  Destructure/Compile/Basic.lean
  ==============================
  **Compiled patterns** — a pattern text with its matcher and the names that it
  captures. `CompiledPattern.match?` answers with the bindings of a value or with
  nothing, `CompiledPattern.bindings` with the bindings or a failure that shows
  the pattern. Two compiled patterns are equal if their texts and matchers are.

  Mirrors `CompiledPattern` of the program.
-/
import Destructure.Matcher.OfPattern

namespace Destructure

/-- A pattern that values can be matched against. One that comes from a text
    knows its tree. -/
structure CompiledPattern where
  source : String
  matcher : Matcher
  names : List String
  tree : Option (Pattern Literal)

namespace CompiledPattern

def root (p : CompiledPattern) : Option Span :=
  match p.tree with
  | some t => some (t.extent.within p.source)
  | none => p.matcher.origin

def caret (p : CompiledPattern) : String :=
  match p.root with
  | some s => s.caret
  | none => p.source

/-- Whether the pattern matches a value. -/
def definedAt (p : CompiledPattern) (v : Value) : Except Fault Bool := p.matcher.definedAt v

/-- The bindings of a value that the pattern matches. -/
def bindings (p : CompiledPattern) (v : Value) : Except Failure Bindings := do
  if ← orFault (p.definedAt v) then p.matcher.bindings v
  else throw (.unmatched (.pattern p.source) v p.root)

/-- The bindings of a value, if the pattern matches it. -/
def match? (p : CompiledPattern) (v : Value) : Except Failure (Option Bindings) := do
  if ← orFault (p.definedAt v) then return some (← p.matcher.bindings v)
  return none

def equals (p q : CompiledPattern) : Except Fault Bool :=
  if p.source == q.source then p.matcher.equals q.matcher else .ok false

/-- Whether two patterns, if they are equal, are looked up in the same place as
    keys. -/
def samePlace? (p q : CompiledPattern) : Except Fault (Option Bool) := do
  if !(← p.equals q) then return none
  else if p.matcher.isKey && q.matcher.isKey then return some (p.matcher.samePlace q.matcher)
  else throw .wrongType

end CompiledPattern

def CompiledPattern.show (p : CompiledPattern) : String :=
  "CompiledPattern(" ++ quoted p.source ++ ")"

end Destructure
