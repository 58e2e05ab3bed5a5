/-
  Destructure/Pattern/Node.lean
  =============================
  **The nodes of a pattern** — every construct of a pattern tree as a node with a
  kind and an extent, listed parents first and siblings from left to right.

  Mirrors `NodeType`, `ASTNode.children`, `ASTNode.walk` and `ASTNode.__repr__`
  of the program.
-/
import Destructure.Pattern.Literal
import Destructure.Pattern.Basic

namespace Destructure

/-- The constructs of a pattern. -/
inductive NodeKind where
  | arrayLiteral
  | arrayValueList
  | arrayTail
  | arrayHead
  | arrayTailSplat
  | arraySplat
  | anonymousArraySplat
  | integerLiteral
  | floatLiteral
  | stringLiteral
  | identifier
deriving DecidableEq, Repr

def NodeKind.title : NodeKind → String
  | arrayLiteral => "ArrayLiteral"
  | arrayValueList => "ArrayValueList"
  | arrayTail => "ArrayTail"
  | arrayHead => "ArrayHead"
  | arrayTailSplat => "ArrayTailSplat"
  | arraySplat => "ArraySplat"
  | anonymousArraySplat => "AnonymousArraySplat"
  | integerLiteral => "IntegerLiteral"
  | floatLiteral => "FloatLiteral"
  | stringLiteral => "StringLiteral"
  | identifier => "Identifier"

/-- A construct in its place. -/
structure Node where
  kind : NodeKind
  extent : Extent
deriving DecidableEq, Repr

def NodeKind.show (kind : NodeKind) (text : String) : String :=
  kind.title ++ "(" ++ quoted text ++ ")"

/-- A node as it is shown: its kind and the text that it spans. -/
def Node.show (source : String) (n : Node) : String :=
  n.kind.show (n.extent.within source).text

def Literal.nodeKind : Literal → NodeKind
  | integer _ => .integerLiteral
  | float _ => .floatLiteral
  | text _ => .stringLiteral

def Name.node (n : Name) : Node := ⟨.identifier, n.extent⟩

def Splat.nodes : Splat → List Node
  | named e name => [⟨.arraySplat, e⟩, name.node]
  | anonymous e => [⟨.anonymousArraySplat, e⟩]

mutual

def Pattern.nodes : Pattern Literal → List Node
  | .literal e v => [⟨v.nodeKind, e⟩]
  | .name n => [n.node]
  | .empty e => [⟨.arrayLiteral, e⟩]
  | .array e es => ⟨.arrayLiteral, e⟩ :: es.nodes

def Elements.nodes : Elements Literal → List Node
  | .one e i => ⟨.arrayValueList, e⟩ :: i.nodes
  | .more e i c => ⟨.arrayValueList, e⟩ :: (i.nodes ++ c.nodes)

def Item.nodes : Item Literal → List Node
  | .pattern p => p.nodes
  | .splat s => s.nodes

def Chain.nodes : Chain Literal → List Node
  | .link e i c => ⟨.arrayTail, e⟩ :: (i.nodes ++ c.nodes)
  | .last e p => ⟨.arrayHead, e⟩ :: p.nodes
  | .lastSplat e s => ⟨.arrayTailSplat, e⟩ :: s.nodes

end

end Destructure
