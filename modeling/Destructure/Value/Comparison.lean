/-
  Destructure/Value/Comparison.lean
  =================================
  **Comparing values** — plain numbers are compared by what they stand for. A
  number beside an element of fixed width is first taken into the element's
  terms: beside a floating-point element it is rounded to the format of that
  element, and an integer too large for a plain floating-point number is refused
  unless the element is wider; beside an integer element a floating-point number
  is compared as if the element were one too. A duration equals integers, and has
  nothing in common with other numbers.

  Texts are compared by code points, sequences of one kind item by item,
  dictionaries without regard to order. Two bare sequences are never equal. With
  an array or one of its elements any value is compared as an array: element by
  element, and what that yields is settled only if it is a single truth.

  Mirrors the `==` of `LiteralMatcher.defined_at`, of guards and of conditions
  in the program.
-/
import Destructure.Value.Operand

namespace Destructure

/-! ### Relations -/

/-- What two values can be asked for. -/
inductive Relation where
  | equal
  | less
  | greater
deriving DecidableEq, Repr

namespace Relation

def swap : Relation → Relation
  | equal => equal
  | less => greater
  | greater => less

def ofOrder (r : Relation) (o : Ordering) : Bool :=
  match r with
  | equal => o == .eq
  | less => o == .lt
  | greater => o == .gt

def ofQuantities (r : Relation) (p q : Quantity) : Bool :=
  match r with
  | equal => p.equal q
  | less => p.below q
  | greater => q.below p

/-- The answer for values that have nothing in common: they are not equal, and
    they have no order. -/
def ofStrangers : Relation → Except Fault Bool
  | equal => .ok false
  | less | greater => .error .wrongType

def ofTexts (r : Relation) (s t : Text) : Bool :=
  match r with
  | equal => s == t
  | less => Text.lt s t
  | greater => Text.lt t s

def ofBytes (r : Relation) (s t : List UInt8) : Bool :=
  r.ofOrder (compareOfLessAndEq (s.map (·.toNat)) (t.map (·.toNat)))

/-- Whether complex numbers are in the relation. They are ordered by their real
    parts first, unless a part is `nan`. -/
def ofParts (r : Relation) (a b : Parts) : Bool :=
  let (p, q) := (a.re.quantity, b.re.quantity)
  let (s, t) := (a.im.quantity, b.im.quantity)
  match r with
  | equal => p.equal q && s.equal t
  | _ => (r.ofQuantities p q && s != .nan && t != .nan) || (p.equal q && r.ofQuantities s t)

end Relation

/-! ### Numbers -/

/-- What a number stands for beside a floating-point element of the given
    type. -/
def Number.besideFloat (type : FloatType) : Number → Except Fault Quantity
  | integer n => (type.ofPlainInteger n).map (·.quantity)
  | float x => .ok (type.format.convert x).quantity
  | elementInteger _ n => .ok ((type.join .float64).format.ofRat n).quantity
  | elementFloat _ x => .ok x.quantity
  | fraction q => .ok (.finite q)

def Number.align (a b : Number) : Except Fault (Quantity × Quantity) :=
  match a, b with
  | elementFloat type x, _ => (b.besideFloat type).map fun q => (x.quantity, q)
  | _, elementFloat type y => (a.besideFloat type).map fun q => (q, y.quantity)
  | elementInteger _ n, float y => .ok ((BinaryFormat.double.ofRat n).quantity, y.quantity)
  | float x, elementInteger _ n => .ok (x.quantity, (BinaryFormat.double.ofRat n).quantity)
  | _, _ => .ok (a.quantity, b.quantity)

def Number.related (r : Relation) (a b : Number) : Except Fault Bool :=
  (a.align b).map fun (p, q) => r.ofQuantities p q

def Number.equals (a b : Number) : Except Fault Bool := Number.related .equal a b

/-- The order of a decimal and a plain number, if both are numbers. A fraction is
    compared after both have been multiplied by its denominator. -/
def Scaled.orderNumber? (d : Scaled) (n : Number) : Option Ordering :=
  match n with
  | .integer n | .elementInteger _ n => d.order? (.ofInt n)
  | .float x | .elementFloat _ x => d.order? (.ofBinary x)
  | .fraction q => (d.scaleUp q.den).order? (.ofInt q.num)

/-- Whether a decimal and something it has been compared with are in a relation. A
    decimal without a place among the numbers can be asked for equality only. -/
def Relation.ofDecimal (r : Relation) (isSignalling : Bool) (o : Option Ordering) :
    Except Fault Bool :=
  if isSignalling then .error .undefinedResult
  else match o with
    | some o => .ok (r.ofOrder o)
    | none => if r = .equal then .ok false else .error .undefinedResult

namespace Value

/-! ### Values without items -/

/-- Two values of which at least one is complex, none is an element, as complex
    numbers. A decimal has none beside it. -/
def complexEquals (a b : Value) : Except Fault Bool :=
  let isZero (x : Binary) : Bool := x.quantity == .finite 0
  match a, b with
  | complex p q, complex s t => .ok (Relation.ofParts .equal ⟨p, q⟩ ⟨s, t⟩)
  | complex p q, decimal d | decimal d, complex p q =>
    if isZero q then Relation.ofDecimal .equal d.isSignalling (d.order? (.ofBinary p))
    else .ok false
  | complex p q, v | v, complex p q =>
    match v.numeric? with
    | some n => if isZero q then Number.equals (.float p) n else .ok false
    | Option.none => .ok false
  | _, _ => .ok false

/-- Whether two values without items, neither of which is a number element, are in
    a relation. -/
def relatedScalars (r : Relation) (a b : Value) : Except Fault Bool :=
  match a, b with
  | decimal d, decimal e => r.ofDecimal (d.isSignalling || e.isSignalling) (d.order? e)
  | none, none => if r = .equal then .ok true else r.ofStrangers
  | bytes _ s, bytes _ t => .ok (r.ofBytes s t)
  | bytes true s, elementText t => .ok (r.ofBytes s (t.stored t.length))
  | elementText s, bytes true t => .ok (r.ofBytes (s.stored s.length) t)
  | range i j k, range i' j' k' =>
    let n := rangeLength i j k
    if r = .equal then
      .ok (n == rangeLength i' j' k' && (n == 0 || (i == i' && (n == 1 || k == k'))))
    else r.ofStrangers
  | complex .., _ | _, complex .. => if r = .equal then complexEquals a b else r.ofStrangers
  | _, _ =>
    match a.numeric?, b.numeric?, a.text?, b.text? with
    | some m, some n, _, _ => Number.related r m n
    | _, _, some s, some t => .ok (r.ofTexts s t)
    | some m, _, _, _ =>
      match b with
      | decimal d => r.swap.ofDecimal d.isSignalling (d.orderNumber? m)
      | _ => r.ofStrangers
    | _, some n, _, _ =>
      match a with
      | decimal d => r.ofDecimal d.isSignalling (d.orderNumber? n)
      | _ => r.ofStrangers
    | _, _, _, _ => r.ofStrangers

/-! ### Arrays -/

/-- Whether a value is an array or an element of one that is compared and combined
    like an array. Texts are texts, wherever they come from. -/
def isElementwise : Value → Bool
  | array .. | elementBool _ | number (.elementInteger ..) | number (.elementFloat ..)
  | duration .. => true
  | _ => false

def toNumber (v : Value) : Except Fault Number :=
  match v.numeric? with
  | some n => .ok n
  | Option.none => .error .wrongType

end Value

namespace Operand

/-- Refuses a plain integer that has no room in the type of another operand.
    Beside integers every integer can be compared. -/
def admitBeside (a b : Operand) : Except Fault Unit :=
  match a.type, a.elements with
  | .plainInteger, [v] => do
    match b.type with
    | .bool => if !IntegerType.holds .int64 (← v.toInt) then throw .overflow
    | .float t | .complex t => let _ ← v.toFloat (t.join .float64)
    | _ => pure ()
  | _, _ => .ok ()

/-- Whether two counts are in a relation, each of its unit. A unit without a scale is
    that of the other one; months are not compared with units of fixed length. -/
def relatedCounts (r : Relation) (s t : TimeUnit) (m n : Option Int) : Except Fault Bool :=
  let quantity (factor : Nat) (count : Option Int) : Quantity :=
    match count with
    | some n => .finite (factor * n : Int)
    | none => .nan
  match s.scale, t.scale with
  | .unspecified, _ | _, .unspecified => .ok (r.ofQuantities (quantity 1 m) (quantity 1 n))
  | .months p, .months q | .attoseconds p, .attoseconds q =>
    .ok (r.ofQuantities (quantity p m) (quantity q n))
  | _, _ => .error .wrongType

/-- The unit in which an operand is counted. -/
def unit (o : Operand) : TimeUnit :=
  match o.type with
  | .duration unit => unit
  | _ => ⟨"", .unspecified⟩

/-- Which elements of two operands are in a relation. Texts and numbers have
    nothing in common: they are not equal, and have no order. -/
def related (whole : Relation → Value → Value → Except Fault Bool) (r : Relation)
    (a b : Operand) : Except Fault (List Bool) := do
  a.admitBeside b
  b.admitBeside a
  match a.type.join? b.type with
  | none =>
    if r = .equal then
      return (List.replicate (shapeSize (← broadcastShapes a.shape b.shape)) false)
    else throw .unsupportedElements
  | some .object => return (← zipWith objects (whole r) a b).2
  | some (.text _) =>
    return (← zipWith (formed (·.written)) (fun s t => .ok (r.ofTexts s t)) a b).2
  | some (.duration _) =>
    return (← zipWith (formed (·.toCount)) (relatedCounts r a.unit b.unit) a b).2
  | some (.complex part) =>
    return (← zipWith (formed (·.toParts part)) (fun s t => .ok (r.ofParts s t)) a b).2
  | some _ => return (← zipWith (formed Value.toNumber) (Number.related r) a b).2

end Operand

namespace Value

/-- The truth of a lone element; of more elements, or none, it is not settled. -/
def loneTruth (bs : List Bool) : Except Fault Bool :=
  match bs with
  | [b] => .ok b
  | _ => .error .badValue

/-- Whether an array or an element and a value are in a relation. -/
def relatedElementwise (whole : Relation → Value → Value → Except Fault Bool) (r : Relation)
    (a b : Value) : Except Fault Bool := do
  loneTruth (← Operand.related whole r (← Operand.ofValue a) (← Operand.ofValue b))

/-- What a plain value answers itself when it is compared with an element. A
    decimal is not compared with integers of fixed width. For its order a fraction
    has the element multiplied by its denominator, in the width of the element.
    Bytes that can be changed are compared with what is stored. -/
def besideElement (r : Relation) (a b : Value) : Option (Except Fault Bool) :=
  match a, b with
  | decimal _, number (.elementInteger ..) => some (.error .wrongType)
  | number (.fraction q), number (.elementInteger type n) =>
    if r = .equal then Option.none
    else if !type.holds q.den then some (.error .overflow)
    else some (.ok (r.ofOrder (compare q.num (type.wrap (q.den * n)))))
  | bytes true s, _ => b.storedForm?.map fun t => .ok (r.ofBytes s t)
  | _, _ => Option.none

/-! ### All values -/

/-- Whether sequences of one kind are in a relation: by their first difference,
    and otherwise by their lengths. -/
def relatedItems (whole : Relation → Value → Value → Except Fault Bool) (r : Relation) :
    List Value → List Value → Except Fault Bool
  | x :: xs, y :: ys => do
    if ← whole .equal x y then relatedItems whole r xs ys
    else if r = .equal then return false
    else whole r x y
  | xs, ys => .ok (r.ofOrder (compare xs.length ys.length))

mutual

/-- How deep comparisons of a value can go: deeper by one for every level of
    items, and by one more where elements lose their types. -/
def depth : Value → Nat
  | number (.elementInteger ..) | number (.elementFloat ..) | elementBool _ | elementText _
  | duration .. | range .. => 2
  | sequence _ items => 1 + depthOfItems items
  | dict entries => 1 + depthOfEntries entries
  | array _ _ elements => 3 + depthOfItems elements
  | _ => 1

def depthOfItems : List Value → Nat
  | [] => 0
  | v :: vs => max v.depth (depthOfItems vs)

def depthOfEntries : List (Value × Value) → Nat
  | [] => 0
  | (k, v) :: es => max (max k.depth v.depth) (depthOfEntries es)

end

/-- The real and the imaginary part that a number is known by as a key. -/
def keyParts? : Value → Option (Value × Value)
  | complex re im => some (float re, float im)
  | decimal d => some (decimal d, integer 0)
  | v => v.numeric?.map fun n => (number n, integer 0)

/-- Whether two numbers that are not complex stand for the same, whatever their
    types. -/
def sameAmount (a b : Value) : Bool :=
  match a, b with
  | decimal d, decimal e => d.order? e == some .eq
  | decimal d, number n | number n, decimal d => d.orderNumber? n == some .eq
  | number m, number n => m.quantity.equal n.quantity
  | _, _ => false

/-- Whether two values without items are looked up in the same place. Numbers that
    stand for the same are, whatever their types. -/
def samePlaceScalar (a b : Value) : Bool :=
  match a, b with
  | none, none => true
  | bytes false s, bytes false t => s == t
  | duration s m, duration t n => s == t && m == n
  | range .., range .. => (relatedScalars .equal a b).toOption == some true
  | _, _ =>
    match a.text?, b.text?, a.keyParts?, b.keyParts? with
    | some s, some t, _, _ => s == t
    | _, _, some (p, q), some (s, t) => sameAmount p s && sameAmount q t
    | _, _, _, _ => false

mutual

/-- Whether two keys are looked up in the same place of a dictionary. Only there
    are keys compared. -/
def samePlace : Value → Value → Bool
  | sequence .tuple xs, sequence .tuple ys => samePlaces xs ys
  | a, b => samePlaceScalar a b

/-- Whether keys are looked up in the same places one by one. -/
def samePlaces : List Value → List Value → Bool
  | [], [] => true
  | x :: xs, y :: ys => samePlace x y && samePlaces xs ys
  | _, _ => false

end

mutual

/-- Whether a value can be a key: it and its items cannot be changed, and a
    decimal among them is one that can be compared. -/
def isKey : Value → Bool
  | sequence .tuple items => areKeys items
  | sequence (.bare _) _ => true
  | sequence .. | dict _ | array .. | bytes true _ => false
  | decimal d => !d.isSignalling
  | _ => true

def areKeys : List Value → Bool
  | [] => true
  | v :: vs => v.isKey && areKeys vs

end

def findEntry (equals : Value → Value → Except Fault Bool) (key : Value) :
    List (Value × Value) → Except Fault (Option Value)
  | [] => .ok Option.none
  | (k, v) :: es => do
    if samePlace k key then
      if ← equals k key then return some v
    findEntry equals key es

/-- Whether every entry of a dictionary has its equal in another one. -/
def equalEntries (equals : Value → Value → Except Fault Bool) (others : List (Value × Value)) :
    List (Value × Value) → Except Fault Bool
  | [] => .ok true
  | (k, v) :: es => do
    match ← findEntry equals k others with
    | some w => if ← equals v w then equalEntries equals others es else return false
    | Option.none => return false

/-! ### All values -/

/-- Whether two values are in a relation, compared no deeper than the first
    argument says. -/
def relatedWithin : Nat → Relation → Value → Value → Except Fault Bool
  | 0, _, _, _ => .error .wrongType
  | fuel + 1, r, a, b =>
    let whole := relatedWithin fuel
    if a.isElementwise then relatedElementwise whole r a b
    else if b.isElementwise then
      (besideElement r a b).getD (relatedElementwise whole r.swap b a)
    else
      match a, b with
      | sequence kind xs, sequence kind' ys =>
        if kind ≠ kind' ∨ kind.isBare then r.ofStrangers
        else if r = .equal ∧ kind ≠ .tuple ∧ xs.length ≠ ys.length then .ok false
        else relatedItems whole r xs ys
      | dict es, dict es' =>
        if r ≠ .equal then r.ofStrangers
        else if es.length = es'.length then equalEntries (whole .equal) es' es
        else .ok false
      | _, _ => relatedScalars r a b

def related (r : Relation) (a b : Value) : Except Fault Bool :=
  relatedWithin (a.depth + b.depth) r a b

def equals (a b : Value) : Except Fault Bool := related .equal a b

/-- The entries of a dictionary with one more; an entry under an equal key takes
    the new value in its place. -/
def insertEntry (entries : List (Value × Value)) (key v : Value) :
    Except Fault (List (Value × Value)) :=
  match entries with
  | [] => if key.isKey then .ok [(key, v)] else .error .wrongType
  | e :: es => do
    if samePlace e.1 key then
      if ← e.1.equals key then return (e.1, v) :: es
    return e :: (← insertEntry es key v)

/-! ### Truth -/

def isNonzero (n : Number) : Bool := n.quantity != .finite 0

/-- Whether a value counts as true: numbers other than zero, and what is not
    empty. The truth of an array is that of its only element. -/
def truth : Value → Except Fault Bool
  | none => .ok false
  | bool b | elementBool b => .ok b
  | number n => .ok (isNonzero n)
  | complex re im => .ok (isNonzero (.float re) || isNonzero (.float im))
  | decimal d => .ok !d.isZero
  | text t | elementText t => .ok !t.isEmpty
  | bytes _ bs => .ok !bs.isEmpty
  | sequence _ items => .ok !items.isEmpty
  | range i j k => .ok (rangeLength i j k != 0)
  | dict es => .ok !es.isEmpty
  | duration _ count => .ok (count != some 0)
  | array _ _ [x] => x.truth
  | array .. => .error .badValue

end Value

end Destructure
