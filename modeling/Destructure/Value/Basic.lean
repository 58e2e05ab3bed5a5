/-
  Destructure/Value/Basic.lean
  ============================
  **Candidates** — the values that patterns are matched against. Numbers form a
  type of their own: the integers, floating-point numbers and fractions of plain
  values, and the integers and floating-point numbers of fixed width that are
  elements of typed arrays. Durations count as numbers as well, but are equal to
  integers only. Truth values are not numbers here, and neither are decimals and
  complex numbers.

  Lists, tuples, double-ended queues and bare sequences hold their items alike
  and differ in how they are shown and cut. An array holds its elements in
  row-major order under its shape; those of a typed array are element values,
  those of an object array are any values. Typed arrays of anything but numbers,
  durations, truth values and texts are left out; no literal accepts their elements.

  Mirrors the candidates that the program is asked about, and its `is_number`.
-/
import Destructure.Fault
import Destructure.Number.Scaled
import Destructure.Text.CodePoint

namespace Destructure

/-! ### Numbers -/

/-- Integer types of fixed width. -/
inductive IntegerType where
  | int8
  | int16
  | int32
  | int64
  | uint8
  | uint16
  | uint32
  | uint64
deriving DecidableEq, Repr

def IntegerType.isSigned : IntegerType → Bool
  | int8 | int16 | int32 | int64 => true
  | uint8 | uint16 | uint32 | uint64 => false

def IntegerType.bits : IntegerType → Nat
  | int8 | uint8 => 8
  | int16 | uint16 => 16
  | int32 | uint32 => 32
  | int64 | uint64 => 64

def IntegerType.least (t : IntegerType) : Int :=
  if t.isSigned then -(Nat.pow 2 (t.bits - 1) : Nat) else 0

def IntegerType.greatest (t : IntegerType) : Int :=
  (Nat.pow 2 (if t.isSigned then t.bits - 1 else t.bits) : Nat) - 1

/-- Floating-point types of fixed width. The widest one has more bits than plain
    floating-point numbers have. -/
inductive FloatType where
  | float16
  | float32
  | float64
  | longdouble
deriving DecidableEq, Repr

def FloatType.format : FloatType → BinaryFormat
  | float16 => .half
  | float32 => .single
  | float64 => .double
  | longdouble => .extended

/-- Numbers that patterns can match. -/
inductive Number where
  | integer (n : Int)
  | float (x : Binary)
  | fraction (q : Rat)
  | elementInteger (type : IntegerType) (n : Int)
  | elementFloat (type : FloatType) (x : Binary)
deriving DecidableEq

def Number.quantity : Number → Quantity
  | integer n | elementInteger _ n => .finite n
  | float x | elementFloat _ x => x.quantity
  | fraction q => .finite q

/-! ### Durations -/

/-- What a unit of time is counted in. A month has no fixed number of seconds. -/
inductive TimeScale where
  | unspecified
  | months (n : Nat)
  | attoseconds (n : Nat)
deriving DecidableEq, Repr

/-- A unit of time, with the name that is written for it. -/
structure TimeUnit where
  name : String
  scale : TimeScale
deriving DecidableEq, Repr

/-! ### Values -/

/-- The kinds of sequence that hold their items one by one. -/
inductive SequenceKind where
  | list
  | tuple
  | deque
  /-- A sequence that can be indexed and nothing else, with the text that it gives for
      itself, if it gives one. -/
  | bare (text : Option String)
deriving DecidableEq, Repr

def SequenceKind.isBare : SequenceKind → Bool
  | bare _ => true
  | list | tuple | deque => false

/-- What the elements of an array are; texts are at most `width` long. -/
inductive ElementType where
  | integer (type : IntegerType)
  | float (type : FloatType)
  | duration (unit : TimeUnit)
  | bool
  | text (width : Nat)
  | object
deriving DecidableEq, Repr

/-- A candidate. -/
inductive Value where
  | none
  | bool (b : Bool)
  | number (n : Number)
  | complex (re im : Binary)
  | decimal (d : Scaled)
  | text (t : Text)
  | bytes (mutable : Bool) (bs : List UInt8)
  | sequence (kind : SequenceKind) (items : List Value)
  | range (start stop step : Int)
  | dict (entries : List (Value × Value))
  /-- A truth value that is an element of a typed array. -/
  | elementBool (b : Bool)
  /-- A text that is an element of a typed array. -/
  | elementText (t : Text)
  /-- So many units of time, or no time at all. -/
  | duration (unit : TimeUnit) (count : Option Int)
  | array (type : ElementType) (shape : List Nat) (elements : List Value)

namespace Value

abbrev integer (n : Int) : Value := number (.integer n)

abbrev float (x : Binary) : Value := number (.float x)

abbrev list (items : List Value) : Value := sequence .list items

def string (s : String) : Value := text (Text.ofString s)

/-- The values that a numeric literal can match. -/
def isNumber : Value → Bool
  | number _ | duration .. => true
  | _ => false

/-- The text of the values that are text. -/
def text? : Value → Option Text
  | text t | elementText t => some t
  | _ => Option.none

end Value

/-- Captured values by name, in the order in which they were captured. -/
abbrev Bindings := List (String × Value)

def Bindings.toValue (bs : Bindings) : Value :=
  .dict (bs.map fun (name, v) => (.string name, v))

end Destructure
