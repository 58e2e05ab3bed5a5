/-
  Destructure/Value/Arithmetic.lean
  =================================
  **Arithmetic of values** — sums, products and negatives. Truth values count as
  zero and one. Plain numbers take the wider of their kinds: an integer becomes a
  fraction beside one and floating beside a floating-point number. Decimals mix
  with integers, complex numbers with all numbers but decimals. Sums of sequences
  of one kind join them, and a product with an integer repeats them.

  With an array or one of its elements any value is combined as an array, in the
  type in which the two meet: integers then wrap around and floating-point numbers
  are rounded to their format. Truth values alone stay truth values. Objects are
  combined like any other values, durations not at all.

  Mirrors what functions handed to the program compute with candidates.
-/
import Destructure.Number.ScaledArithmetic
import Destructure.Value.Comparison

namespace Destructure

/-! ### Operations on numbers -/

/-- The operations of two operands. -/
inductive Operation where
  | add
  | mul
deriving DecidableEq, Repr

def Parts.add (f : BinaryFormat) (a b : Parts) : Parts := ⟨f.add a.re b.re, f.add a.im b.im⟩

def Parts.mul (f : BinaryFormat) (a b : Parts) : Parts :=
  ⟨f.add (f.mul a.re b.re) (f.mul a.im b.im).neg, f.add (f.mul a.re b.im) (f.mul a.im b.re)⟩

namespace Operation

def onBool : Operation → Bool → Bool → Bool
  | add => (· || ·)
  | mul => (· && ·)

def onInt : Operation → Int → Int → Int
  | add => (· + ·)
  | mul => (· * ·)

def onRat : Operation → Rat → Rat → Rat
  | add => (· + ·)
  | mul => (· * ·)

def onBinary : Operation → BinaryFormat → Binary → Binary → Binary
  | add => BinaryFormat.add
  | mul => BinaryFormat.mul

def onParts : Operation → BinaryFormat → Parts → Parts → Parts
  | add => Parts.add
  | mul => Parts.mul

def onScaled : Operation → Scaled → Scaled → Except Fault Scaled
  | add => Scaled.add
  | mul => Scaled.mul

def inFloat (o : Operation) (a b : Number) : Except Fault Number := do
  return .float (o.onBinary .double (← a.toFloat .float64) (← b.toFloat .float64))

def onNumbers (o : Operation) : Number → Number → Except Fault Number
  | .integer m, .integer n => .ok (.integer (o.onInt m n))
  | .fraction p, .fraction q => .ok (.fraction (o.onRat p q))
  | .fraction p, .integer n => .ok (.fraction (o.onRat p n))
  | .integer m, .fraction q => .ok (.fraction (o.onRat m q))
  | a, b => o.inFloat a b

end Operation

def Number.neg : Number → Number
  | .integer n => .integer (-n)
  | .float x => .float x.neg
  | .fraction q => .fraction (-q)
  | .elementInteger type n => .elementInteger type (type.wrap (-n))
  | .elementFloat type x => .elementFloat type x.neg

/-! ### Operations on plain values -/

namespace Value

/-- A value as a decimal; of the numbers only the integers are one. -/
def scaled (v : Value) : Except Fault Scaled :=
  match v with
  | decimal d => .ok d
  | _ =>
    match v.numeric? with
    | some (.integer n) => .ok (.ofInt n)
    | _ => .error .wrongType

/-- The number of copies that a plain value asks for. -/
def copies? : Value → Option Int
  | number (.integer n) => some n
  | bool b => some (if b then 1 else 0)
  | _ => Option.none

/-- The most copies that can be asked for. -/
def copyLimit : Int := 9223372036854775807

/-- A list repeated `n` times; no copies for a number below one. -/
def repeated {α : Type} (xs : List α) (n : Int) : Except Fault (List α) :=
  if copyLimit < n ∨ n < -copyLimit - 1 then .error .overflow
  else if xs.isEmpty then .ok []
  else .ok (List.replicate n.toNat xs).flatten

def repeated? (v : Value) (n : Int) : Option (Except Fault Value) :=
  match v with
  | sequence (.bare _) _ => Option.none
  | sequence kind xs => some ((repeated xs n).map (sequence kind))
  | text t | elementText t => some ((repeated t n).map text)
  | bytes mutable bs => some ((repeated bs n).map (bytes mutable))
  | _ => Option.none

end Value

namespace Operation

def onScalars (o : Operation) (a b : Value) : Except Fault Value :=
  match a, b with
  | .decimal _, _ | _, .decimal _ => do
    return .decimal (← o.onScaled (← a.scaled) (← b.scaled))
  | .complex .., _ | _, .complex .. => do
    let r := o.onParts .double (← a.toParts .float64) (← b.toParts .float64)
    return .complex r.re r.im
  | _, _ =>
    match a.numeric?, b.numeric? with
    | some m, some n => (o.onNumbers m n).map .number
    | _, _ => .error .wrongType

def onPlain (o : Operation) (a b : Value) : Except Fault Value :=
  match o with
  | add =>
    match a, b with
    | .sequence kind xs, .sequence kind' ys =>
      if kind = kind' ∧ !kind.isBare then .ok (.sequence kind (xs ++ ys)) else .error .wrongType
    | .bytes mutable s, .bytes _ t => .ok (.bytes mutable (s ++ t))
    | .bytes mutable s, .elementText t => .ok (.bytes mutable (s ++ t.stored t.length))
    | _, _ =>
      match a.text?, b.text? with
      | some s, some t => .ok (.text (s ++ t))
      | _, _ => o.onScalars a b
  | mul =>
    match b.copies?.bind a.repeated?, a.copies?.bind b.repeated? with
    | some r, _ | _, some r => r
    | _, _ => o.onScalars a b

end Operation

/-! ### Operations on arrays -/

/-- An array of a type, or its element if it has no dimensions. -/
def Value.ofElements (type : ElementType) (shape : List Nat) (elements : List Value) : Value :=
  match shape, elements with
  | [], [x] => x
  | _, _ => .array type shape elements

namespace Operand

/-- The elements of an operand as integers of a type. Only a plain integer can be
    out of its range. -/
def integers (type : IntegerType) (o : Operand) : Except Fault (List Int) :=
  o.elements.mapM fun v => do
    let n ← v.toInt
    if type.holds n then return n else throw .overflow

/-- Why two operands that meet in no type have no result. A text and an integer
    have a product, but one without a width to store it in. -/
def refusal (o : Operation) (a b : OperandType) : Fault :=
  let isText : OperandType → Bool
    | .text _ | .bytes => true
    | _ => false
  let isInteger : OperandType → Bool
    | .integer _ | .plainInteger => true
    | _ => false
  if o = .mul && ((isText a && isInteger b) || (isInteger a && isText b)) then .wrongType
  else .unsupportedElements

def combine (whole : Value → Value → Except Fault Value) (o : Operation) (a b : Operand) :
    Except Fault Value := do
  match a.type.join? b.type with
  | some .bool =>
    let f (m n : Int) := .ok (.elementBool (o.onBool (m != 0) (n != 0)))
    let (shape, vs) ← zipWith (formed (·.toInt)) f a b
    return .ofElements .bool shape vs
  | some (.integer t) =>
    let f (m n : Int) := .ok (.number (.elementInteger t (t.wrap (o.onInt m n))))
    let (shape, vs) ← zipWith (integers t) f a b
    return .ofElements (.integer t) shape vs
  | some (.float t) =>
    let f (x y : Binary) := .ok (.number (.elementFloat t (o.onBinary t.format x y)))
    let (shape, vs) ← zipWith (formed (·.toFloat t)) f a b
    return .ofElements (.float t) shape vs
  | some (.complex t) =>
    let f (p q : Parts) :=
      let r := o.onParts t.format p q
      .ok (.complex r.re r.im)
    let (shape, vs) ← zipWith (formed (·.toParts t)) f a b
    return .ofElements .object shape vs
  | some .object =>
    let (shape, vs) ← zipWith objects whole a b
    return .ofElements .object shape vs
  | some (.text width) =>
    if o ≠ .add then throw .unsupportedElements
    let f (s t : Text) := .ok (.elementText (s ++ t))
    let (shape, vs) ← zipWith (formed (·.written)) f a b
    return .ofElements (.text width) shape vs
  | _ => throw (refusal o a.type b.type)

end Operand

namespace Operation

/-- What a plain value and an element result in where they are not combined as
    arrays. A text cannot be joined with an element, and bytes are joined with its
    stored form. A fraction becomes floating beside an element that is as wide as
    plain numbers are. A sequence is repeated by an element that is an integer. -/
def besideElement (o : Operation) (a b : Value) : Option (Except Fault Value) :=
  let repeatedBy (v : Value) (times : Value) : Option (Except Fault Value) :=
    match v, times with
    | .elementText _, _ => none
    | _, .number (.elementInteger _ n) => v.repeated? n
    | _, .number (.elementFloat ..) | _, .elementBool _ =>
      (v.repeated? 0).map fun _ => .error .wrongType
    | _, _ => none
  match o, a, b with
  | _, _, .array .. | _, .array .., _ => none
  | _, .number (.fraction q), .number (.elementFloat .float64 y) => some do
    let x ← Number.toFloat .float64 (.fraction q)
    return .number (.elementFloat .float64 (o.onBinary .double x y))
  | add, .text _, _ | add, .elementText _, _ => some (.error .wrongType)
  | add, .bytes false s, _ => b.storedForm?.map fun t => .ok (.bytes false (s ++ t))
  | add, _, _ => none
  | mul, _, _ => (repeatedBy a b).or (repeatedBy b a)

/-- The result of an operation, on objects no deeper in arrays than the first
    argument says. -/
def onWithin (o : Operation) : Nat → Value → Value → Except Fault Value
  | 0, _, _ => .error .wrongType
  | depth + 1, a, b =>
    if a.isElementwise || b.isElementwise then
      match o.besideElement a b with
      | some r => r
      | none => do Operand.combine (o.onWithin depth) o (← Operand.ofValue a) (← Operand.ofValue b)
    else o.onPlain a b

def on (o : Operation) (a b : Value) : Except Fault Value := o.onWithin (a.depth + b.depth) a b

end Operation

namespace Value

/-- The sum of two values. -/
def add (a b : Value) : Except Fault Value := Operation.add.on a b

def mul (a b : Value) : Except Fault Value := Operation.mul.on a b

mutual

/-- The value with the other sign. Truth values from arrays have none. -/
def neg : Value → Except Fault Value
  | number n => .ok (number n.neg)
  | bool b => .ok (number (ofBool b).neg)
  | complex re im => .ok (complex re.neg im.neg)
  | decimal d => d.neg.map decimal
  | array .bool .. => .error .wrongType
  | array (.text _) .. => .error .unsupportedElements
  | array type shape xs => (negItems xs).map (ofElements type shape)
  | _ => .error .wrongType

def negItems : List Value → Except Fault (List Value)
  | [] => .ok []
  | v :: vs => do return (← neg v) :: (← negItems vs)

end

/-! ### Items -/

def count : Value → Except Fault Int
  | text t | elementText t => .ok t.length
  | bytes _ bs => .ok bs.length
  | dict es => .ok es.length
  | v => do
    match ← v.length? with
    | some n => return n
    | Option.none => throw .wrongType

def items : Value → Except Fault (List Value)
  | text t | elementText t => .ok (t.map fun c => text [c])
  | bytes _ bs => .ok (bs.map fun b => integer b.toNat)
  | dict es => .ok (es.map (·.1))
  | sequence _ vs | array _ [_] vs => .ok vs
  | array type (n :: shape) vs => .ok ((pieces (shapeSize shape) n vs).map (array type shape))
  | range start stop step =>
    .ok ((List.range (rangeLength start stop step)).map fun (i : Nat) => integer (start + i * step))
  | _ => .error .wrongType

def total (v : Value) : Except Fault Value := do
  (← v.items).foldlM add (integer 0)

end Value

end Destructure
