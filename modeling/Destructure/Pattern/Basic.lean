/-
  Destructure/Pattern/Basic.lean
  ==============================
  **Pattern trees** — a pattern is a literal, a name, or an array pattern. The
  items of a non-empty array hang in a chain: the first item, then one link per
  further item, each of which begins at its comma and reaches to the end of the
  last item. The last link says what closes the array, a plain element or a
  splat; before it an item may be either, so that a misplaced splat is a tree
  that can be talked about and not a failure to read.

  Every node carries its extent in the pattern text. The parameter is what stands
  at a literal: its lexeme while the text is read, its value afterwards.

  Mirrors `ASTNode` of the program and its kinds: `ArrayLiteral`,
  `ArrayValueList`, `ArrayTail`, `ArrayHead`, `ArrayTailSplat`, `ArraySplat`,
  `AnonymousArraySplat`, `IntegerLiteral`, `FloatLiteral`, `StringLiteral` and
  `Identifier`.
-/
import Destructure.Text.Span

namespace Destructure

/-- A name as it stands in a pattern. -/
structure Name where
  extent : Extent
  text : String
deriving DecidableEq, Repr

/-- A splat takes the remainder of a sequence; `*_` takes it without a name. -/
inductive Splat where
  | named (extent : Extent) (name : Name)
  | anonymous (extent : Extent)
deriving DecidableEq, Repr

def Splat.extent : Splat → Extent
  | named e _ | anonymous e => e

mutual

/-- A pattern with `α` at its literals. -/
inductive Pattern (α : Type) where
  | literal (extent : Extent) (value : α)
  | name (name : Name)
  /-- The array pattern without items. -/
  | empty (extent : Extent)
  | array (extent : Extent) (elements : Elements α)

/-- The items of a non-empty array pattern. -/
inductive Elements (α : Type) where
  | one (extent : Extent) (first : Item α)
  | more (extent : Extent) (first : Item α) (rest : Chain α)

/-- What can stand between two commas. -/
inductive Item (α : Type) where
  | pattern (p : Pattern α)
  | splat (s : Splat)

/-- The items after the first, each from its comma on. -/
inductive Chain (α : Type) where
  | link (extent : Extent) (item : Item α) (rest : Chain α)
  | last (extent : Extent) (element : Pattern α)
  | lastSplat (extent : Extent) (splat : Splat)

end

/-! ### Extents -/

def Pattern.extent {α : Type} : Pattern α → Extent
  | literal e _ | empty e | array e _ => e
  | name n => n.extent

/-- Where the items of an array stand, brackets excluded. -/
def Elements.extent {α : Type} : Elements α → Extent
  | one e _ | more e _ _ => e

def Item.extent {α : Type} : Item α → Extent
  | pattern p => p.extent
  | splat s => s.extent

/-- Where a link of the chain stands, its comma included. -/
def Chain.extent {α : Type} : Chain α → Extent
  | link e _ _ | last e _ | lastSplat e _ => e

/-! ### Literals put in place of their lexemes -/

section Traverse

variable {α β ε : Type}

mutual

/-- Replaces what stands at the literals, from left to right, until one of them
    is refused. -/
def Pattern.traverse (f : Extent → α → Except ε β) : Pattern α → Except ε (Pattern β)
  | .literal e a => do return .literal e (← f e a)
  | .name n => .ok (.name n)
  | .empty e => .ok (.empty e)
  | .array e es => do return .array e (← es.traverse f)

def Elements.traverse (f : Extent → α → Except ε β) : Elements α → Except ε (Elements β)
  | .one e i => do return .one e (← i.traverse f)
  | .more e i c => do
    let i ← i.traverse f
    return .more e i (← c.traverse f)

def Item.traverse (f : Extent → α → Except ε β) : Item α → Except ε (Item β)
  | .pattern p => do return .pattern (← p.traverse f)
  | .splat s => .ok (.splat s)

def Chain.traverse (f : Extent → α → Except ε β) : Chain α → Except ε (Chain β)
  | .link e i c => do
    let i ← i.traverse f
    return .link e i (← c.traverse f)
  | .last e p => do return .last e (← p.traverse f)
  | .lastSplat e s => .ok (.lastSplat e s)

end

end Traverse

end Destructure
