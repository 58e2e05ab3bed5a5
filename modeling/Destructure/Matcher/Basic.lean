/-
  Destructure/Matcher/Basic.lean
  ==============================
  **Matchers** — the executable form of a pattern. An array pattern becomes a
  chain with one matcher per item, each of which knows the index of its item and
  looks at the whole sequence; a chain ends with the matcher that checks the
  length. `Matcher.definedAt` says whether a value has the required shape,
  `Matcher.bindings` what is captured of it. Indices are integers, for a chain
  may be built by hand; below zero they count from the end of the sequence.

  A matcher may know the place in a pattern text that it comes from. Places do
  not count when matchers are compared, and numbers count by what they stand for.
  Matchers are keys as far as the values that they ask for are.

  Mirrors `Matcher` of the program and its kinds `IdentifierMatcher`,
  `LiteralMatcher`, `EmptyListMatcher`, `ArrayListMatcher`, `ArrayHeadMatcher`
  and `AnonymousSplatMatcher`, with `_require_sequence` and `merge_bindings`.
-/
import Destructure.Failure
import Destructure.Pattern.Literal
import Destructure.Value.Comparison

namespace Destructure

/-- A matcher. -/
inductive Matcher where
  /-- Captures whatever it is given. -/
  | capture (name : String) (origin : Option Span)
  | literal (value : Literal) (origin : Option Span)
  /-- A number that equals a value which no literal can write. -/
  | equalTo (value : Value) (origin : Option Span)
  /-- A sequence that ends at the index. -/
  | nothing (index : Int) (origin : Option Span)
  /-- The element at the index, and what is required of the rest. -/
  | item (head tail : Matcher) (index : Int) (origin : Option Span)
  /-- The suffix from the index on; the tail never comes to be asked. -/
  | remainder (head tail : Matcher) (index : Int) (origin : Option Span)
  /-- The last element of a sequence, at the index. -/
  | last (element : Matcher) (index : Int) (origin : Option Span)
  /-- Any remainder, which is not captured. -/
  | anything (origin : Option Span)

namespace Matcher

def origin : Matcher → Option Span
  | capture _ o | literal _ o | equalTo _ o | nothing _ o | item _ _ _ o
  | remainder _ _ _ o | last _ _ o | anything o => o

/-- The matcher's place under a caret; nothing where there is none. -/
def caret (m : Matcher) : String :=
  match m.origin with
  | some s => s.caret
  | none => ""

/-- Whether the matcher captures nothing of any remainder. -/
def isAnything : Matcher → Bool
  | anything _ => true
  | _ => false

end Matcher

/-! ### Literals -/

def Literal.number? : Literal → Option Number
  | integer n => some (.integer n)
  | float x => some (.float x)
  | text _ => none

/-- Whether a value is the literal: an equal text for a text, an equal number for
    a number. A duration is equal to the integer that counts it. -/
def Literal.accepts (l : Literal) (v : Value) : Except Fault Bool :=
  match l with
  | text s => .ok (v.text? == some (Text.ofString s))
  | integer n =>
    match v with
    | .number m => m.equals (.integer n)
    | .duration _ count => .ok (count == some n)
    | _ => .ok false
  | float x =>
    match v with
    | .number m => m.equals (.float x)
    | _ => .ok false

def Literal.toValue : Literal → Value
  | integer n => .integer n
  | float x => .float x
  | text s => .string s

/-- Whether a value is accepted by one that stands in place of a literal: a text by
    an equal text, a number by any value that it equals. -/
def Value.acceptedBy (v w : Value) : Except Fault Bool :=
  match w.text? with
  | some s => .ok (v.text? == some s)
  | Option.none => if v.isNumber then v.equals w else .ok false

/-- Equality of literals, numbers by what they stand for. -/
def Literal.equals : Literal → Literal → Bool
  | text s, text t => s == t
  | a, b =>
    match a.number?, b.number? with
    | some m, some n => m.quantity.equal n.quantity
    | _, _ => false

/-! ### Matching -/

/-- A fault of a value as a failure. -/
def orFault {α : Type} (r : Except Fault α) : Except Failure α :=
  match r with
  | .ok x => .ok x
  | .error f => .error (.fault f)

/-- All of the left bindings and, behind them, those of the right; no name may be
    in both. The first name on the right that is taken is the one complained of. -/
def Bindings.merge (left right : Bindings) : Except Failure Bindings :=
  match right.find? fun b => left.any (·.1 == b.1) with
  | some b => .error (.conflict b.1 none)
  | none => .ok (left ++ right)

namespace Matcher

/-- Whether a value has the shape that the matcher requires. -/
def definedAt (m : Matcher) (v : Value) : Except Fault Bool :=
  match m with
  | capture .. | anything _ => .ok true
  | literal l _ => l.accepts v
  | equalTo w _ => v.acceptedBy w
  | nothing index _ => do
    match ← v.length? with
    | some n => return (n : Int) == index
    | none => return false
  | item head tail index _ => do
    match ← v.length? with
    | some n =>
      if index < (n : Int) then
        if ← head.definedAt (← v.element index) then tail.definedAt v else return false
      else return false
    | none => return false
  | remainder head _ index _ => do
    match ← v.length? with
    | some n =>
      if (n : Int) < index then return false
      else if head.isAnything then return true
      else head.definedAt (← v.suffix index)
    | none => return false
  | last element index _ => do
    match ← v.length? with
    | some n =>
      if index + 1 == (n : Int) then element.definedAt (← v.element index) else return false
    | none => return false

/-- What the matcher captures of a value. Only where it is defined does this mean
    anything; elsewhere it fails, or captures what happens to be at the indices. -/
def bindings (m : Matcher) (v : Value) : Except Failure Bindings :=
  match m with
  | capture name _ => .ok [(name, v)]
  | literal .. | equalTo .. | nothing .. | anything _ => .ok []
  | item head tail index origin =>
    if v.isSequence then do
      let captured ← head.bindings (← orFault (v.element index))
      captured.merge (← tail.bindings v)
    else .error (.unmatched .notSequence v origin)
  | remainder head _ index origin =>
    if v.isSequence then
      if head.isAnything then .ok []
      else do head.bindings (← orFault (v.suffix index))
    else .error (.unmatched .notSequence v origin)
  | last element index origin =>
    if v.isSequence then do element.bindings (← orFault (v.element index))
    else .error (.unmatched .notSequence v origin)

/-! ### Comparing and showing matchers -/

/-- The matcher that accepts what is equal to a value. -/
def accepting : Value → Matcher
  | .number (.integer n) => literal (.integer n) none
  | .number (.float x) => literal (.float x) none
  | .text t => literal (.text t.toString) none
  | v => equalTo v none

/-- The value that a matcher of a value asks for. -/
def target? : Matcher → Option Value
  | literal l _ => some l.toValue
  | equalTo v _ => some v
  | _ => none

/-- Equality of matchers, wherever they come from. Parts are compared one by one, up
    to the first two that differ. -/
def equals : Matcher → Matcher → Except Fault Bool
  | capture a _, capture b _ => .ok (a == b)
  | literal a _, literal b _ => .ok (a.equals b)
  | nothing i _, nothing j _ => .ok (i == j)
  | item h t i _, item h' t' j _ | remainder h t i _, remainder h' t' j _ => do
    if !(← h.equals h') then return false
    return (← t.equals t') && i == j
  | item h t _ _, remainder h' t' _ _ | remainder h t _ _, item h' t' _ _ => do
    if ← h.equals h' then let _ ← t.equals t'
    return false
  | last e i _, last e' j _ => return (← e.equals e') && i == j
  | anything _, anything _ => .ok true
  | a, b =>
    match a.target?, b.target? with
    | some v, some w => v.equals w
    | _, _ => .ok false

/-- Whether a matcher can be a key: the values that it asks for can. -/
def isKey : Matcher → Bool
  | item h t _ _ | remainder h t _ _ => h.isKey && t.isKey
  | last e _ _ => e.isKey
  | m => (m.target?.map (·.isKey)).getD true

/-- Whether two equal matchers are looked up in the same place: the values that they
    ask for are. -/
def samePlace : Matcher → Matcher → Bool
  | item h t _ _, item h' t' _ _ | remainder h t _ _, remainder h' t' _ _ =>
    h.samePlace h' && t.samePlace t'
  | last e _ _, last e' _ _ => e.samePlace e'
  | a, b =>
    match a.target?, b.target? with
    | some v, some w => v.samePlace w
    | _, _ => true

end Matcher

def Literal.show : Literal → Except Fault String
  | integer n => showInteger n
  | float x => .ok (FloatLayout.plain.text x)
  | text s => .ok (quoted s)

def showArrayMatcher (head tail : String) (index : Int) (isSplat : Bool) : String :=
  "ArrayListMatcher(head=" ++ head ++ ", tail=" ++ tail ++ ", index=" ++ toString index ++
    ", splat=" ++ (if isSplat then "True" else "False") ++ ")"

/-- A matcher with its parts, unless a value that it asks for cannot be shown. -/
def Matcher.show : Matcher → Except Fault String
  | capture name _ => .ok ("IdentifierMatcher(name=" ++ quoted name ++ ")")
  | literal l _ => do return "LiteralMatcher(value=" ++ (← l.show) ++ ")"
  | equalTo v _ => do return "LiteralMatcher(value=" ++ (← v.show) ++ ")"
  | nothing index _ => .ok ("EmptyListMatcher(index=" ++ toString index ++ ")")
  | item h t i _ => do return showArrayMatcher (← h.show) (← t.show) i false
  | remainder h t i _ => do return showArrayMatcher (← h.show) (← t.show) i true
  | last e i _ => do
    return "ArrayHeadMatcher(element=" ++ (← e.show) ++ ", index=" ++ toString i ++ ")"
  | anything _ => .ok "AnonymousSplatMatcher()"

end Destructure
