/-
  Destructure/Number/Layout.lean
  ==============================
  **Decimal layouts** — a decimal is written positionally, with at least one
  digit on each side of the point, or with an exponent of at least two digits
  and its sign, where a point stands only before further digits. Which of the
  two is chosen belongs to the writer: plain floating-point numbers are
  positional from `0.0001` up to below ten to the sixteenth.

  Mirrors the `repr` of floating-point numbers that the program shows and writes
  as JSON.
-/
import Destructure.Number.Shortest

namespace Destructure

def decimalDigits (n : Nat) : List Char := Nat.toDigits 10 n

/-- The digits before and after the point in positional notation; the whole part
    has at least one digit. -/
def Decimal.parts (d : Decimal) : List Char × List Char :=
  let ds := decimalDigits d.digits
  if 0 ≤ d.exponent then (ds ++ List.replicate d.exponent.toNat '0', [])
  else
    let places := d.exponent.natAbs
    let padded := List.replicate (places + 1 - ds.length) '0' ++ ds
    (padded.take (padded.length - places), padded.drop (padded.length - places))

def Decimal.scale (d : Decimal) : Int :=
  d.exponent + (decimalWidth d.digits : Int) - 1

/-- Positional notation; a whole number has a point and a zero only where
    `pointAlways` asks for them. -/
def Decimal.positional (pointAlways : Bool) (d : Decimal) : List Char :=
  match d.parts with
  | (whole, []) => if pointAlways then whole ++ ['.', '0'] else whole
  | (whole, fraction) => whole ++ '.' :: fraction

/-- The exponent in scientific notation: a sign and at least two digits. -/
def exponentText (x : Int) : List Char :=
  let ds := decimalDigits x.natAbs
  (if x < 0 then '-' else '+') :: (if ds.length < 2 then '0' :: ds else ds)

/-- Scientific notation, without a point after a lone digit. -/
def Decimal.scientific (d : Decimal) : List Char :=
  let mantissa := match decimalDigits d.digits with
    | [] => []
    | [c] => [c]
    | c :: cs => c :: '.' :: cs
  mantissa ++ 'e' :: exponentText d.scale

/-- How numbers of a format are written: positionally from one ten-thousandth up
    to below ten to the `limit`, and zero as well; otherwise with an exponent. -/
structure FloatLayout where
  format : BinaryFormat
  limit : Nat
  pointAlways : Bool
deriving DecidableEq, Repr

namespace FloatLayout

def plain : FloatLayout := ⟨.double, 16, true⟩

/-- The parts of a complex number, which need no point. -/
def complexPart : FloatLayout := ⟨.double, 16, false⟩

/-- Array elements of thirty-two bits, shown with the digits that they are sure
    to hold. -/
def single : FloatLayout := ⟨.single, 6, true⟩

/-- Array elements of sixteen bits. -/
def half : FloatLayout := ⟨.half, 3, true⟩

/-- Array elements of eighty bits. -/
def extended : FloatLayout := ⟨.extended, 16, true⟩

def isPositional (l : FloatLayout) (magnitude : Rat) : Bool :=
  magnitude == 0 || (mkRat 1 10000 ≤ magnitude && magnitude < (Nat.pow 10 l.limit : Rat))

def text (l : FloatLayout) : Binary → String
  | .nan => "nan"
  | .infinite negative => if negative then "-inf" else "inf"
  | .finite negative s e =>
    let d := l.format.shortest s e
    let body := if l.isPositional (Binary.magnitude s e) then d.positional l.pointAlways
      else d.scientific
    String.ofList (if negative then '-' :: body else body)

end FloatLayout

end Destructure
