/-
  Destructure/Number/Shortest.lean
  ================================
  **Shortest decimals** — the decimal that shows a binary number is the one of
  fewest digits that still reads back as it, and of several such the nearest.
  For one digit, two, three and so on the two neighbours of the number on the
  grid of that many digits are tried in exact arithmetic; the first grid with
  one that reads back wins. A tie between the two goes to the even one.

  Mirrors the digits in the `repr` of floating-point numbers that the program
  shows.
-/
import Destructure.Number.Binary

namespace Destructure

/-- A decimal number without sign: `digits * 10 ^ exponent`. -/
structure Decimal where
  digits : Nat
  exponent : Int
deriving DecidableEq, Repr

def decimalWidth (n : Nat) : Nat := (Nat.toDigits 10 n).length

def shiftDown (num den : Nat) (j : Int) : Nat × Nat :=
  if j < 0 then (num * Nat.pow 10 j.natAbs, den) else (num, den * Nat.pow 10 j.natAbs)

/-- The exponent of the greatest power of ten that does not exceed the
    quotient, both parts being positive. -/
def floorLog10 (num den : Nat) : Int :=
  let k : Int := (decimalWidth num : Int) - decimalWidth den
  let (n, d) := shiftDown num den k
  if n < d then k - 1 else k

def Decimal.trim (fuel : Nat) (d : Decimal) : Decimal :=
  match fuel with
  | 0 => d
  | fuel + 1 =>
    if d.digits ≠ 0 ∧ d.digits % 10 = 0 then trim fuel ⟨d.digits / 10, d.exponent + 1⟩ else d

/-- Four times the distance from a number down to the next lower one of its
    format is twice this, in units of a quarter of its last bit: a power of two
    has a nearer neighbour below unless it is among the least numbers. -/
def BinaryFormat.lowerMargin (f : BinaryFormat) (s : Nat) (e : Int) : Nat :=
  if s = Nat.pow 2 (f.precision - 1) ∧ f.leastExponent < e then 1 else 2

/-- Whether `c * 10 ^ j` reads back as the number `s * 2 ^ e` of the format. The
    ends of the interval that rounds to a number belong to it when its
    significand is even. -/
def BinaryFormat.readsBack (f : BinaryFormat) (s : Nat) (e : Int) (c : Nat) (j : Int) : Bool :=
  -- both sides in units of a quarter of the last bit, over a common denominator
  let (n, d) := shiftDown c 1 (-j)
  let (n, d) := scaleDown n d (e - 2)
  let low := (4 * s - f.lowerMargin s e) * d
  let high := (4 * s + 2) * d
  if s % 2 = 0 then low ≤ n && n ≤ high else low < n && n < high

/-- The nearest decimal on the grid of `width` digits that reads back, if one of
    the number's two neighbours on it does. -/
def BinaryFormat.onGrid? (f : BinaryFormat) (s : Nat) (e : Int) (width : Nat) : Option Decimal :=
  let (num, den) := scaleDown s 1 (-e)
  let j := floorLog10 num den - width + 1
  let (n, d) := shiftDown num den j
  let low := n / d
  let twice := 2 * (n % d)
  let lowFirst := twice < d || (twice == d && low % 2 == 0)
  let lowOk := f.readsBack s e low j
  let highOk := f.readsBack s e (low + 1) j
  if lowOk && (lowFirst || !highOk) then some ⟨low, j⟩
  else if highOk then some ⟨low + 1, j⟩
  else none

/-- The shortest decimal that reads back as `s * 2 ^ e`. Twenty-one digits always
    do in the formats in use. -/
def BinaryFormat.shortest (f : BinaryFormat) (s : Nat) (e : Int) : Decimal :=
  if s = 0 then ⟨0, 0⟩
  else
    let found := (List.range 21).findSome? fun i => f.onGrid? s e (i + 1)
    (found.getD ⟨s, e⟩).trim 400

end Destructure
