/-
  Destructure/Value/Operand.lean
  ==============================
  **Operands** — values as arrays see them when they are compared with an array or
  combined with one. An element of an array is an array without dimensions;
  sequences are stacked, and have to be rectangular; other values are single
  objects. A plain number that stands alone has no type of its own and takes the
  type of what it is beside, while a number in a sequence has the type in which it
  is stored.

  Two operands meet in the type that holds both, `OperandType.join?`, and in the
  shape that `broadcastShapes` finds: a dimension of length one is repeated.

  Mirrors the arrays that the program's candidates are turned into by an
  operation beside an array.
-/
import Destructure.Value.Show
import Destructure.Value.Storage

namespace Destructure

/-! ### Types that hold others -/

/-- An integer brought into the range of a type by wrapping around. -/
def IntegerType.wrap (type : IntegerType) (n : Int) : Int :=
  let size := type.greatest - type.least + 1
  (n - type.least) % size + type.least

def IntegerType.holds (type : IntegerType) (n : Int) : Bool :=
  type.least ≤ n && n ≤ type.greatest

/-- The signed type of least width that has more bits than an unsigned one. -/
def IntegerType.signedAbove? (bits : Nat) : Option IntegerType :=
  [int8, int16, int32, int64].find? fun t => bits < t.bits

/-- The type that holds the results of two integer types, if it is an integer
    type. -/
def IntegerType.join? (s t : IntegerType) : Option IntegerType :=
  if s.isSigned = t.isSigned then some (if s.bits ≤ t.bits then t else s)
  else
    let (signed, unsigned) := if s.isSigned then (s, t) else (t, s)
    if unsigned.bits < signed.bits then some signed else signedAbove? unsigned.bits

def FloatType.join : FloatType → FloatType → FloatType
  | .longdouble, _ | _, .longdouble => .longdouble
  | .float64, _ | _, .float64 => .float64
  | .float32, _ | _, .float32 => .float32
  | .float16, .float16 => .float16

def FloatType.ofInteger (t : IntegerType) : FloatType :=
  if t.bits ≤ 8 then .float16 else if t.bits ≤ 16 then .float32 else .float64

/-- The types that elements of operands can have. The plain ones are those of
    numbers that stand alone. -/
inductive OperandType where
  | bool
  | integer (type : IntegerType)
  | float (type : FloatType)
  /-- Complex numbers whose parts have the type. -/
  | complex (part : FloatType)
  | duration (unit : TimeUnit)
  | text (width : Nat)
  | bytes
  | object
  | plainInteger
  | plainFloat
  | plainComplex
deriving DecidableEq, Repr

namespace OperandType

def ofElementType : ElementType → OperandType
  | .integer t => integer t
  | .float t => float t
  | .duration unit => duration unit
  | .bool => bool
  | .text width => text width
  | .object => object

def isWhole : OperandType → Bool
  | bool | integer _ | plainInteger => true
  | _ => false

def isComplex : OperandType → Bool
  | complex _ | plainComplex => true
  | _ => false

/-- The floating-point type that a type needs beside another one. A plain number
    needs one only beside integers. -/
def floatType? (a b : OperandType) : Option FloatType :=
  match a with
  | integer t => some (.ofInteger t)
  | float t | complex t => some t
  | plainFloat | plainComplex => if b.isWhole then some .float64 else none
  | _ => none

/-- The floating-point or complex type that holds the numbers of two types. -/
def joinFloats (a b : OperandType) : OperandType :=
  let part := match floatType? a b, floatType? b a with
    | some s, some t => s.join t
    | some t, none | none, some t => t
    | none, none => .float64
  if a.isComplex || b.isComplex then complex (part.join .float32) else float part

/-- The type that holds the numbers of two types. -/
def joinNumbers (a b : OperandType) : OperandType :=
  match a, b with
  | bool, bool => bool
  | bool, plainInteger | plainInteger, bool => integer .int64
  | bool, integer t | integer t, bool | plainInteger, integer t | integer t, plainInteger =>
    integer t
  | integer s, integer t =>
    match s.join? t with
    | some u => integer u
    | none => float .float64
  | _, _ => joinFloats a b

/-- The type in which two types meet in an operation. Texts meet texts only,
    durations meet durations and integers, and with whole objects everything is an
    object. -/
def join? (a b : OperandType) : Option OperandType :=
  match a, b with
  | object, _ | _, object => some object
  | text m, text n => some (text (m + n))
  | text _, _ | _, text _ | bytes, _ | _, bytes => none
  | duration s, duration _ => some (duration s)
  | duration s, t | t, duration s => if t.isWhole then some (duration s) else none
  | _, _ => some (joinNumbers a b)

def writtenWidth : OperandType → Nat
  | bool => 5
  | integer .int8 => 4
  | integer .uint8 => 3
  | integer .int16 => 6
  | integer .uint16 => 5
  | integer .int32 => 11
  | integer .uint32 => 10
  | integer .uint64 => 20
  | integer .int64 => 21
  | float .longdouble => 48
  | float _ => 32
  | text width => width
  | _ => 64

/-- The type in which items of two types are stored together. Beside a text all
    but objects are written as texts. -/
def store (a b : OperandType) : OperandType :=
  match a, b with
  | object, _ | _, object => object
  | text _, _ | _, text _ => text (max a.writtenWidth b.writtenWidth)
  | bytes, _ | _, bytes => bytes
  | duration s, duration t => if s = t then duration s else object
  | duration _, _ | _, duration _ => object
  | _, _ => joinNumbers a b

end OperandType

/-! ### Elements in a type -/

/-- A plain integer as a floating-point number of a type. It passes through the plain
    format and has to fit into it; for the widest type it is written out and read. -/
def FloatType.ofPlainInteger (type : FloatType) (n : Int) : Except Fault Binary :=
  match type with
  | .longdouble =>
    if Value.isWritableInteger n then .ok (type.format.ofRat n) else .error .badValue
  | _ =>
    match BinaryFormat.double.ofInt? n with
    | some x => .ok (type.format.convert x)
    | none => .error .overflow

/-- A number as a floating-point number of a type. -/
def Number.toFloat (type : FloatType) (n : Number) : Except Fault Binary :=
  match n with
  | .integer i => type.ofPlainInteger i
  | .float x | .elementFloat _ x => .ok (type.format.convert x)
  | .elementInteger _ i => .ok (type.format.ofRat i)
  | .fraction q =>
    match BinaryFormat.double.ofRat q with
    | .infinite _ => .error .overflow
    | x => .ok (type.format.convert x)

/-- The real and the imaginary part of a complex number. -/
structure Parts where
  re : Binary
  im : Binary

namespace Value

def ofBool (b : Bool) : Number := .integer (if b then 1 else 0)

def numeric? : Value → Option Number
  | number n => some n
  | bool b | elementBool b => some (ofBool b)
  | _ => Option.none

def toInt : Value → Except Fault Int
  | number (.integer n) | number (.elementInteger _ n) => .ok n
  | bool b | elementBool b => .ok (if b then 1 else 0)
  | _ => .error .wrongType

def toFloat (type : FloatType) (v : Value) : Except Fault Binary :=
  match v.numeric? with
  | some n => n.toFloat type
  | Option.none => .error .wrongType

def toParts (type : FloatType) (v : Value) : Except Fault Parts :=
  match v with
  | complex re im => .ok ⟨type.format.convert re, type.format.convert im⟩
  | _ => do return ⟨← v.toFloat type, .finite false 0 type.format.leastExponent⟩

def plain : Value → Value
  | number (.elementInteger _ n) => integer n
  | number (.elementFloat _ x) => float (BinaryFormat.double.convert x)
  | elementBool b => bool b
  | elementText t => text t
  | v => v

/-- The number of units of a duration, or an integer that stands for one. -/
def toCount : Value → Except Fault (Option Int)
  | duration _ count => .ok count
  | v => v.toInt.map some

def written : Value → Except Fault Text
  | text t | elementText t => .ok t
  | bytes _ bs => .ok (bs.map fun b => CodePoint.ofChar (Char.ofNat b.toNat))
  | number (.elementFloat type x) => .ok (Text.ofString (type.layout.text x))
  | v => v.plain.show.map Text.ofString

def stored (type : OperandType) (v : Value) : Except Fault Value :=
  match type with
  | .bool => return elementBool ((← v.toInt) != 0)
  | .integer t => return number (.elementInteger t (← v.toInt))
  | .float t => return number (.elementFloat t (← v.toFloat t))
  | .complex t => do
    let parts ← v.toParts t
    return complex parts.re parts.im
  | .text _ => return elementText (← v.written)
  | _ => return v

end Value

/-! ### Operands -/

/-- A value as an array: elements in row-major order under a shape. -/
structure Operand where
  type : OperandType
  shape : List Nat
  elements : List Value

namespace Operand

def typeOf : Value → OperandType
  | .bool _ | .elementBool _ => .bool
  | .number (.integer _) => .plainInteger
  | .number (.float _) => .plainFloat
  | .number (.elementInteger t _) => .integer t
  | .number (.elementFloat t _) => .float t
  | .duration unit _ => .duration unit
  | .complex .. => .plainComplex
  | .text t | .elementText t => .text (max 1 t.length)
  | .bytes false _ => .bytes
  | _ => .object

/-- The type in which a value is stored as an item of a sequence. An integer is
    stored with sixty-four bits if it has room there, and as an object
    otherwise. -/
def itemType (v : Value) : OperandType :=
  match v with
  | .number (.integer n) =>
    if IntegerType.holds .int64 n then .integer .int64
    else if IntegerType.holds .uint64 n then .integer .uint64
    else .object
  | .number (.float _) => .float .float64
  | .complex .. => .complex .float64
  | _ => typeOf v

/-- Operands of one shape stacked along a new first dimension. -/
def stack : List Operand → Except Fault Operand
  | [] => .ok ⟨.float .float64, [0], []⟩
  | o :: os =>
    if os.any (·.shape != o.shape) then .error .badValue
    else .ok ⟨os.foldl (fun t p => t.store p.type) o.type, (os.length + 1) :: o.shape,
      (o :: os).flatMap (·.elements)⟩

def stored (o : Operand) : Except Fault Operand := do
  return { o with elements := ← o.elements.mapM (·.stored o.type) }

mutual

/-- An item of a sequence as an operand whose elements are not stored yet. -/
def ofItem : Value → Except Fault Operand
  | .array type shape elements => .ok ⟨.ofElementType type, shape, elements⟩
  | .sequence _ items => do stack (← ofItems items)
  | .range start stop step =>
    let n := rangeLength start stop step
    if Value.countLimit < n then .ok ⟨.object, [], [.range start stop step]⟩
    else stack ((List.range n).map fun (i : Nat) =>
      let v := Value.integer (start + i * step)
      ⟨itemType v, [], [v]⟩)
  | .bytes true bs =>
    .ok ⟨.integer .uint8, [bs.length], bs.map fun b => .number (.elementInteger .uint8 b.toNat)⟩
  | v => .ok ⟨itemType v, [], [v]⟩

def ofItems : List Value → Except Fault (List Operand)
  | [] => .ok []
  | v :: vs => do return (← ofItem v) :: (← ofItems vs)

end

def ofValue (v : Value) : Except Fault Operand :=
  match v with
  | .sequence .. | .range .. | .array .. | .bytes true _ => do stored (← ofItem v)
  | _ => .ok ⟨typeOf v, [], [v]⟩

end Operand

/-! ### Shapes -/

/-- The common shape of two shapes that are written from the last dimension on. -/
def broadcastReversed : List Nat → List Nat → Option (List Nat)
  | [], ns => some ns
  | ms, [] => some ms
  | m :: ms, n :: ns =>
    if m = n ∨ n = 1 then (broadcastReversed ms ns).map (m :: ·)
    else if m = 1 then (broadcastReversed ms ns).map (n :: ·)
    else none

/-- The common shape of two shapes: they are aligned at their last dimensions, and
    lengths of one give way. -/
def broadcastShapes (s t : List Nat) : Except Fault (List Nat) :=
  match broadcastReversed s.reverse t.reverse with
  | some u => .ok u.reverse
  | none => .error .badValue

/-- The elements of an array of a shape repeated to fill a shape with as many
    dimensions. -/
def spread {α : Type} : List Nat → List Nat → List α → List α
  | m :: s, n :: t, xs =>
    let rows := (pieces (shapeSize s) m xs).flatMap (spread s t)
    if m = n then rows else (List.replicate n rows).flatten
  | _, _, xs => xs

def broadcast {α : Type} (s t : List Nat) (xs : List α) : List α :=
  spread (List.replicate (t.length - s.length) 1 ++ s) t xs

namespace Operand

/-- Elements of two operands, brought into a form first, taken together one by
    one in the common shape. -/
def zipWith {α β : Type} (form : Operand → Except Fault (List α))
    (f : α → α → Except Fault β) (a b : Operand) : Except Fault (List Nat × List β) := do
  let xs ← form a
  let ys ← form b
  let shape ← broadcastShapes a.shape b.shape
  let zs ← ((broadcast a.shape shape xs).zip (broadcast b.shape shape ys)).mapM
    fun (x, y) => f x y
  return (shape, zs)

def formed {α : Type} (form : Value → Except Fault α) (o : Operand) : Except Fault (List α) :=
  o.elements.mapM form

def objects (o : Operand) : Except Fault (List Value) :=
  .ok (if o.type = .object then o.elements else o.elements.map (·.plain))

end Operand

end Destructure
