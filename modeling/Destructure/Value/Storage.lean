/-
  Destructure/Value/Storage.lean
  ==============================
  **Stored elements** — the bytes in which elements of fixed width are stored, the
  least significant byte first: integers in two's complement, floating-point
  numbers by sign, exponent and significand, texts by four bytes for a code
  point. Bytes can be joined to the stored form of an element, and bytes that can
  be changed are compared with it.

  Mirrors the buffers of the program's candidates.
-/
import Destructure.Value.Sequence

namespace Destructure

def leastBytes (count n : Nat) : List UInt8 :=
  (List.range count).map fun i => UInt8.ofNat (n / Nat.pow 256 i % 256)

def IntegerType.byteCount (t : IntegerType) : Nat := t.bits / 8

def FloatType.byteCount : FloatType → Nat
  | float16 => 2
  | float32 => 4
  | float64 => 8
  | longdouble => 16

def IntegerType.stored (type : IntegerType) (n : Int) : List UInt8 :=
  leastBytes type.byteCount (n % (Nat.pow 256 type.byteCount : Nat)).toNat

/-- The exponent and the significand of a number without its sign in one natural:
    the exponent counts from the least one, and the first bit of a significand
    that has all of its bits is left out. -/
def BinaryFormat.packed (f : BinaryFormat) : Binary → Nat
  | .nan => ((f.greatestExponent - f.leastExponent).toNat + 2) * Nat.pow 2 (f.precision - 1) +
      Nat.pow 2 (f.precision - 2)
  | .infinite _ => ((f.greatestExponent - f.leastExponent).toNat + 2) * Nat.pow 2 (f.precision - 1)
  | .finite _ s e => (e - f.leastExponent).toNat * Nat.pow 2 (f.precision - 1) + s

/-- The same with all bits of the significand in sixty-four, below the exponent. -/
def BinaryFormat.packedInFull (f : BinaryFormat) : Binary → Nat
  | .nan => 32767 * Nat.pow 2 64 + 3 * Nat.pow 2 62
  | .infinite _ => 32767 * Nat.pow 2 64 + Nat.pow 2 63
  | .finite _ s e =>
    (if s < Nat.pow 2 63 then 0 else (e - f.leastExponent).toNat + 1) * Nat.pow 2 64 + s

def FloatType.stored (type : FloatType) (x : Binary) : List UInt8 :=
  let sign (bits : Nat) := if x.isNegative then Nat.pow 2 (bits - 1) else 0
  leastBytes type.byteCount (match type with
    | longdouble => sign 80 + type.format.packedInFull x
    | _ => sign (8 * type.byteCount) + type.format.packed x)

def Text.stored (width : Nat) (t : Text) : List UInt8 :=
  (t.flatMap fun c => leastBytes 4 c.val) ++ List.replicate (4 * (width - t.length)) 0

namespace Value

def storedAs (type : ElementType) (v : Value) : List UInt8 :=
  match type, v with
  | .text width, elementText t => t.stored width
  | _, number (.elementInteger t n) => t.stored n
  | _, number (.elementFloat t x) => t.stored x
  | _, elementBool b => [if b then 1 else 0]
  | _, duration _ count => IntegerType.int64.stored (count.getD IntegerType.int64.least)
  | _, _ => []

/-- The stored form of an array or of one of its elements. Objects are not stored
    by what they are. -/
def storedForm? : Value → Option (List UInt8)
  | array .object .. => Option.none
  | array type _ elements => some (elements.flatMap (·.storedAs type))
  | elementText t => some (t.stored t.length)
  | v@(number (.elementInteger ..)) | v@(number (.elementFloat ..)) | v@(elementBool _)
  | v@(duration ..) => some (v.storedAs .object)
  | _ => Option.none

end Value

end Destructure
