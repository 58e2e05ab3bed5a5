/-
  Destructure/Number/Binary.lean
  ==============================
  **Binary floating-point numbers** — a number is a sign, a significand and the
  weight of its last bit, or an infinity, or `nan`. A format bounds the
  significand and the weight; the numbers of a format are the results of
  `BinaryFormat.nearest`, which takes a quotient of naturals to the nearest
  number, a tie going to the even significand and too large a quotient to
  infinity. Every operation here is exact arithmetic followed by that one
  rounding.

  Mirrors the numbers behind `FloatLiteral` and behind floating-point candidates
  of the program.
-/
import Destructure.Number.Quantity

namespace Destructure

/-- A binary floating-point number: `significand * 2 ^ exponent` with a sign, or
    one of the special values. -/
inductive Binary where
  | nan
  | infinite (negative : Bool)
  | finite (negative : Bool) (significand : Nat) (exponent : Int)
deriving DecidableEq, Repr

/-- A format: the number of bits of a significand, and the least and the
    greatest weight of its last bit. -/
structure BinaryFormat where
  precision : Nat
  leastExponent : Int
  greatestExponent : Int
deriving DecidableEq, Repr

namespace BinaryFormat

/-- The format of sixteen bits. -/
def half : BinaryFormat := ⟨11, -24, 5⟩

/-- The format of thirty-two bits. -/
def single : BinaryFormat := ⟨24, -149, 104⟩

/-- The format of sixty-four bits, the one of plain floating-point numbers. -/
def double : BinaryFormat := ⟨53, -1074, 971⟩

/-- The format of eighty bits, whose significand has sixty-four. -/
def extended : BinaryFormat := ⟨64, -16445, 16320⟩

end BinaryFormat

/-! ### Rounding -/

/-- The quotient rounded to the nearest natural, a tie to the even one. -/
def roundHalfEven (num den : Nat) : Nat :=
  let q := num / den
  let twice := 2 * (num % den)
  if twice < den then q
  else if den < twice then q + 1
  else if q % 2 = 0 then q else q + 1

def scaleDown (num den : Nat) (e : Int) : Nat × Nat :=
  if e < 0 then (num * Nat.pow 2 e.natAbs, den) else (num, den * Nat.pow 2 e.natAbs)

/-- The exponent of the greatest power of two that does not exceed the
    quotient, both parts being positive. -/
def floorLog2 (num den : Nat) : Int :=
  let k : Int := (Nat.log2 num : Int) - Nat.log2 den
  let (n, d) := scaleDown num den k
  if n < d then k - 1 else k

/-- The number of the format nearest to the quotient, with the given sign. -/
def BinaryFormat.nearest (f : BinaryFormat) (negative : Bool) (num den : Nat) : Binary :=
  if num = 0 then .finite negative 0 f.leastExponent
  else
    let e := max (floorLog2 num den - f.precision + 1) f.leastExponent
    let (n, d) := scaleDown num den e
    let s := roundHalfEven n d
    let (s, e) := if s = Nat.pow 2 f.precision then (s / 2, e + 1) else (s, e)
    if f.greatestExponent < e then .infinite negative else .finite negative s e

/-- The number of the format nearest to a rational; zero is positive. -/
def BinaryFormat.ofRat (f : BinaryFormat) (q : Rat) : Binary :=
  f.nearest (q.num < 0) q.num.natAbs q.den

namespace Binary

def magnitude (significand : Nat) (exponent : Int) : Rat :=
  let (n, d) := scaleDown significand 1 (-exponent)
  mkRat n d

def quantity : Binary → Quantity
  | nan => .nan
  | infinite negative => .infinite negative
  | finite negative s e => .finite (if negative then -magnitude s e else magnitude s e)

/-- The sign bit; `nan` has none. -/
def isNegative : Binary → Bool
  | nan => false
  | infinite negative | finite negative _ _ => negative

def neg : Binary → Binary
  | nan => nan
  | infinite negative => infinite (!negative)
  | finite negative s e => finite (!negative) s e

end Binary

def BinaryFormat.ofQuantity (f : BinaryFormat) : Quantity → Binary
  | .nan => .nan
  | .infinite negative => .infinite negative
  | .finite q => f.ofRat q

/-- A number taken into another format; a zero keeps its sign. -/
def BinaryFormat.convert (f : BinaryFormat) (x : Binary) : Binary :=
  match x with
  | .finite negative 0 _ => .finite negative 0 f.leastExponent
  | _ => f.ofQuantity x.quantity

/-- An integer as a number of the format, unless it is too large for one. -/
def BinaryFormat.ofInt? (f : BinaryFormat) (n : Int) : Option Binary :=
  match f.ofRat n with
  | .infinite _ => none
  | x => some x

/-! ### Arithmetic -/

/-- The sum in a format. A sum of zeros is negative only if both are; other
    sums that vanish are positive. -/
def BinaryFormat.add (f : BinaryFormat) : Binary → Binary → Binary
  | .nan, _ | _, .nan => .nan
  | .infinite a, .infinite b => if a == b then .infinite a else .nan
  | .infinite a, .finite .. => .infinite a
  | .finite .., .infinite b => .infinite b
  | .finite a 0 _, .finite b 0 _ => .finite (a && b) 0 f.leastExponent
  | x, y =>
    match x.quantity, y.quantity with
    | .finite p, .finite q => f.ofRat (p + q)
    | _, _ => .nan

/-- The product in a format; its sign is negative when the factors' signs
    differ. -/
def BinaryFormat.mul (f : BinaryFormat) : Binary → Binary → Binary
  | .nan, _ | _, .nan => .nan
  | .infinite a, .infinite b => .infinite (a != b)
  | .infinite a, .finite b s _ | .finite b s _, .infinite a =>
    if s = 0 then .nan else .infinite (a != b)
  | .finite a s d, .finite b t e =>
    if s = 0 ∨ t = 0 then .finite (a != b) 0 f.leastExponent
    else
      let q := Binary.magnitude s d * Binary.magnitude t e
      f.nearest (a != b) q.num.natAbs q.den

end Destructure
