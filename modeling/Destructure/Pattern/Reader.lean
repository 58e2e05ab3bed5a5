/-
  Destructure/Pattern/Reader.lean
  ===============================
  **Reading a pattern** — the reader goes through the tokens from left to right.
  At each moment it stands at a `Place`: before a pattern, behind a bracket, a
  comma, a star or a complete item, or behind the complete pattern. A place knows
  the arrays that are still open around it, and which tokens can come next; the
  first token that cannot is the error, and so is an end of the text where the
  pattern is not complete. Literals keep their lexemes until the whole text has
  been read, so a text that is wrong in both ways is reported for its form.

  Mirrors `Parser.parse` of the program with the rules of its grammar,
  `PatternTransformer`, `_meta_location`, `_syntax_error` and
  `_describe_terminal`.
-/
import Destructure.Pattern.Literal
import Destructure.Pattern.Token

namespace Destructure

/-! ### Arrays that are being read -/

/-- An open array with one item or more; the further items stand last first, each
    with the offset of its comma. -/
structure OpenArray where
  bracket : Nat
  first : Item Lexeme
  further : List (Nat × Item Lexeme)

/-- A position in an open array that waits for its item. -/
inductive Slot where
  | first (bracket : Nat)
  | next (array : OpenArray) (comma : Nat)

def Slot.fill : Slot → Item Lexeme → OpenArray
  | first bracket, item => ⟨bracket, item, []⟩
  | next array comma, item => { array with further := (comma, item) :: array.further }

def OpenArray.stop (a : OpenArray) : Nat :=
  match a.further with
  | [] => a.first.extent.stop
  | (_, item) :: _ => item.extent.stop

/-- The chain of the items `earlier`, last first, in front of a chain; all links
    reach to the same end. -/
def Chain.prepend {α : Type} (stop : Nat) (c : Chain α) : List (Nat × Item α) → Chain α
  | [] => c
  | (comma, item) :: earlier => prepend stop (.link ⟨comma, stop⟩ item c) earlier

/-- The link that closes an array. -/
def Chain.closing {α : Type} (extent : Extent) : Item α → Chain α
  | .pattern p => .last extent p
  | .splat s => .lastSplat extent s

def OpenArray.elements (a : OpenArray) : Elements Lexeme :=
  let extent := ⟨a.first.extent.start, a.stop⟩
  match a.further with
  | [] => .one extent a.first
  | (comma, item) :: earlier =>
    .more extent a.first (Chain.prepend a.stop (.closing ⟨comma, a.stop⟩ item) earlier)

/-! ### Places -/

/-- Where the reader stands. The outer slots wait for the array that is being
    read, innermost first. -/
inductive Place where
  | start
  | opened (bracket : Nat) (outer : List Slot)
  | afterComma (array : OpenArray) (comma : Nat) (outer : List Slot)
  | afterStar (slot : Slot) (star : Nat) (outer : List Slot)
  | afterItem (array : OpenArray) (outer : List Slot)
  | complete (p : Pattern Lexeme)

/-- The place behind a pattern that the innermost outer slot waits for. -/
def Place.after (p : Pattern Lexeme) : List Slot → Place
  | [] => complete p
  | slot :: outer => afterItem (slot.fill (.pattern p)) outer

def Token.name (t : Token) : Name := ⟨t.extent, String.ofList t.text⟩

/-- The name of the splat that binds nothing. -/
def anonymousName : List Char := ['_']

def Splat.ofToken (star : Nat) (t : Token) : Splat :=
  let extent := ⟨star, t.extent.stop⟩
  if t.text = anonymousName then .anonymous extent else .named extent t.name

/-- The place behind a token that starts a pattern for the slots. -/
def Place.begin? (t : Token) (slots : List Slot) : Option Place :=
  match t.terminal with
  | .openBracket => some (opened t.start slots)
  | .float => some (after (.literal t.extent ⟨.float, t.text⟩) slots)
  | .integer => some (after (.literal t.extent ⟨.integer, t.text⟩) slots)
  | .string => some (after (.literal t.extent ⟨.string, t.text⟩) slots)
  | .name => some (after (.name t.name) slots)
  | .closeBracket | .comma | .star => none

/-- The place behind a token that can come next. -/
def Place.next? (place : Place) (t : Token) : Option Place :=
  match place with
  | start => begin? t []
  | opened bracket outer =>
    match t.terminal with
    | .closeBracket => some (after (.empty ⟨bracket, t.extent.stop⟩) outer)
    | .star => some (afterStar (.first bracket) t.start outer)
    | _ => begin? t (.first bracket :: outer)
  | afterComma array comma outer =>
    match t.terminal with
    | .star => some (afterStar (.next array comma) t.start outer)
    | _ => begin? t (.next array comma :: outer)
  | afterStar slot star outer =>
    match t.terminal with
    | .name => some (afterItem (slot.fill (.splat (.ofToken star t))) outer)
    | _ => none
  | afterItem array outer =>
    match t.terminal with
    | .comma => some (afterComma array t.start outer)
    | .closeBracket =>
      some (after (.array ⟨array.bracket, t.extent.stop⟩ array.elements) outer)
    | _ => none
  | complete _ => none

/-! ### What is expected -/

/-- What a reader can be told to expect. -/
inductive Expectation where
  | terminal (t : Terminal)
  | endOfPattern
deriving DecidableEq, Repr

def Expectation.wording : Expectation → String
  | terminal .openBracket => "`[`"
  | terminal .closeBracket => "`]`"
  | terminal .comma => "`,`"
  | terminal .star => "`*`"
  | terminal .float => "float"
  | terminal .integer => "integer"
  | terminal .name => "name"
  | terminal .string => "string"
  | endOfPattern => "end of pattern"

/-- The terminals that start a pattern, apart from the bracket, in the order of
    their wording. -/
def scalarTerminals : List Terminal := [.float, .integer, .name, .string]

/-- The terminals looked for at a place, in the order of their wording. Behind a
    complete pattern those that could follow it inside an array are looked for
    as well. -/
def Place.lookedFor : Place → List Terminal
  | start => .openBracket :: scalarTerminals
  | opened .. => .star :: .openBracket :: .closeBracket :: scalarTerminals
  | afterComma .. => .star :: .openBracket :: scalarTerminals
  | afterStar .. => [.name]
  | afterItem .. | complete _ => [.comma, .closeBracket]

/-- What is expected at a place when the given kind of token stands there, if
    any. A token that is looked for behind a complete pattern is recognised, and
    then only the end of the pattern would have done. -/
def Place.expected (place : Place) (found : Option Terminal) : List Expectation :=
  match place, found with
  | complete _, some t =>
    if place.lookedFor.contains t then [.endOfPattern] else place.lookedFor.map .terminal
  | _, _ => place.lookedFor.map .terminal

/-! ### Faults -/

/-- Why a text is no pattern. -/
inductive SyntaxFault where
  | unexpectedEnd (offset : Nat) (expected : List Expectation)
  | unexpectedToken (token : Token) (expected : List Expectation)
  | unexpectedCharacter (offset : Nat) (c : Char) (expected : List Expectation)
  | invalidLiteral (extent : Extent) (fault : LiteralFault)
deriving DecidableEq, Repr

namespace SyntaxFault

def message : SyntaxFault → String
  | unexpectedEnd .. => "unexpected end of pattern"
  | unexpectedToken t _ => "unexpected token `" ++ String.ofList t.text ++ "`"
  | unexpectedCharacter _ c _ => "unexpected character `" ++ String.singleton c ++ "`"
  | invalidLiteral _ fault => "invalid literal: " ++ fault.message

/-- Where the fault is: at the one place where the text goes wrong, or on the
    whole of a literal. -/
def extent : SyntaxFault → Extent
  | unexpectedEnd p _ | unexpectedCharacter p _ _ => ⟨p, p + 1⟩
  | unexpectedToken t _ => ⟨t.start, t.start + 1⟩
  | invalidLiteral e _ => e

def expected : SyntaxFault → List Expectation
  | unexpectedEnd _ es | unexpectedToken _ es | unexpectedCharacter _ _ es => es
  | invalidLiteral .. => []

end SyntaxFault

/-! ### Reading -/

/-- Goes through the tokens from a place. -/
def Place.run (place : Place) : List Token → Except SyntaxFault Place
  | [] => .ok place
  | t :: ts =>
    match place.next? t with
    | none => .error (.unexpectedToken t (place.expected t.terminal))
    | some place => place.run ts

/-- The pattern at the end of the text, of `length` characters, where no further
    token stands. -/
def Place.finish (place : Place) (length : Nat) (stray : Option (Nat × Char)) :
    Except SyntaxFault (Pattern Lexeme) :=
  match stray, place with
  | some (offset, c), _ => .error (.unexpectedCharacter offset c (place.expected none))
  | none, complete p => .ok p
  | none, _ => .error (.unexpectedEnd length (place.expected none))

/-- Reads the form of a pattern; its literals are not yet looked into. -/
def readForm (cs : List Char) : Except SyntaxFault (Pattern Lexeme) := do
  let ts := tokensOf cs
  let place ← Place.start.run ts.tokens
  place.finish cs.length ts.stray

def Lexeme.valueAt (extent : Extent) (l : Lexeme) : Except SyntaxFault Literal :=
  match l.value with
  | .ok v => .ok v
  | .error fault => .error (.invalidLiteral extent fault)

/-- The pattern that a text writes. -/
def Pattern.parse (source : String) : Except SyntaxFault (Pattern Literal) := do
  let form ← readForm source.toList
  form.traverse Lexeme.valueAt

end Destructure
