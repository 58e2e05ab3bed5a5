/-
  Destructure/Number/Scaled.lean
  ==============================
  **Decimals that keep their zeros** — a decimal number whose trailing zeros are
  part of it, so that `1.5` and `1.50` are equal and yet shown differently. An
  exponent is written where the number is far below one or has zeros that are not
  known. Infinities are decimals as well, and so is `NaN`, which may be of the
  signalling kind that no operation accepts and may carry a number of its own.

  Decimals are compared by their first place and then digit by digit, so the cost
  does not depend on how large they are.

  Mirrors the decimals that candidates of the program may be.
-/
import Destructure.Number.Reading

namespace Destructure

/-- A decimal number that keeps its trailing zeros, or a special value. A `NaN`
    that carries no number carries zero. -/
inductive Scaled where
  | nan (negative signalling : Bool) (payload : Nat)
  | infinite (negative : Bool)
  | finite (negative : Bool) (decimal : Decimal)
deriving DecidableEq, Repr

namespace Scaled

def ofInt (n : Int) : Scaled := finite (n < 0) ⟨n.natAbs, 0⟩

/-- A binary number as the decimal that it is exactly. -/
def ofBinary : Binary → Scaled
  | .nan => nan false false 0
  | .infinite negative => infinite negative
  | .finite negative s e =>
    if 0 ≤ e then finite negative ⟨s * Nat.pow 2 e.natAbs, 0⟩
    else finite negative ⟨s * Nat.pow 5 e.natAbs, e⟩

/-- Whether a decimal is of the kind that no operation accepts. -/
def isSignalling : Scaled → Bool
  | nan _ signalling _ => signalling
  | _ => false

def isNaN : Scaled → Bool
  | nan .. => true
  | _ => false

def isZero : Scaled → Bool
  | finite _ d => d.digits == 0
  | _ => false

/-- Whether the sign of a decimal is a minus. -/
def isNegative : Scaled → Bool
  | nan negative .. | infinite negative | finite negative _ => negative

end Scaled

/-! ### Order -/

/-- The digits of a decimal on a scale that is no coarser than its own. -/
def Decimal.onScale (d : Decimal) (exponent : Int) : Nat :=
  if d.digits = 0 then 0 else d.digits * Nat.pow 10 (d.exponent - exponent).toNat

def Decimal.order (d e : Decimal) : Ordering :=
  if d.digits = 0 ∨ e.digits = 0 then compare d.digits e.digits
  else if d.scale ≠ e.scale then compare d.scale e.scale
  else
    let exponent := min d.exponent e.exponent
    compare (d.onScale exponent) (e.onScale exponent)

namespace Scaled

/-- The order of two decimals, if both are numbers. Zeros are equal whatever their
    signs. -/
def order? : Scaled → Scaled → Option Ordering
  | nan .., _ | _, nan .. => none
  | infinite a, infinite b => some (compare b.toNat a.toNat)
  | infinite a, finite .. => some (if a then .lt else .gt)
  | finite .., infinite b => some (if b then .gt else .lt)
  | finite a d, finite b e =>
    let a := a && d.digits != 0
    let b := b && e.digits != 0
    some (if a == b then (if a then e.order d else d.order e) else if a then .lt else .gt)

def scaleUp (n : Nat) : Scaled → Scaled
  | finite negative d => finite negative ⟨d.digits * n, d.exponent⟩
  | d => d

/-! ### Text -/

def unsignedText : Scaled → List Char
  | nan _ signalling payload =>
    (if signalling then ['s'] else []) ++ ['N', 'a', 'N'] ++
      if payload = 0 then [] else decimalDigits payload
  | infinite _ => "Infinity".toList
  | finite _ d =>
    let ds := decimalDigits d.digits
    let width : Int := ds.length
    let point := d.exponent + width
    let dot := if d.exponent ≤ 0 ∧ -6 < point then point else 1
    let body :=
      if dot ≤ 0 then '0' :: '.' :: List.replicate dot.natAbs '0' ++ ds
      else if width ≤ dot then ds ++ List.replicate (dot - width).toNat '0'
      else ds.take dot.toNat ++ '.' :: ds.drop dot.toNat
    let shift := point - dot
    let tail := if shift = 0 then []
      else 'E' :: (if shift < 0 then '-' else '+') :: decimalDigits shift.natAbs
    body ++ tail

def text (d : Scaled) : String :=
  String.ofList (if d.isNegative then '-' :: d.unsignedText else d.unsignedText)

/-- Characters dropped around a decimal: besides those that are dropped around
    other numbers, the separators of records. -/
def isBlank (c : Char) : Bool := isNumberBlank c || (0x1c ≤ c.toNat && c.toNat ≤ 0x1f)

/-- The greatest place that a decimal can begin at. -/
def greatestPlace : Int := 999999999999999999

/-- The least place that a decimal can end at. -/
def leastPlace : Int := -1999999999999999997

/-- The decimal, if it lies within the greatest and the least place. -/
def ofDecimal? (negative : Bool) (d : Decimal) : Option Scaled :=
  if leastPlace ≤ d.exponent && d.scale ≤ greatestPlace then some (finite negative d) else none

def readPayload? (negative signalling : Bool) (ds : List Char) : Option Scaled :=
  if ds.all isDecimalDigit then some (nan negative signalling (digitsValue ds)) else none

/-- The decimal that a text writes. Underscores count for nothing. -/
def read? (cs : List Char) : Option Scaled :=
  let (negative, body) := splitSign ((trimBlanks isBlank cs).filter (· != '_'))
  match body.map Char.toLower with
  | ['i', 'n', 'f'] | ['i', 'n', 'f', 'i', 'n', 'i', 't', 'y'] => some (infinite negative)
  | 'n' :: 'a' :: 'n' :: ds => readPayload? negative false ds
  | 's' :: 'n' :: 'a' :: 'n' :: ds => readPayload? negative true ds
  | _ => (readDecimal? body).bind (ofDecimal? negative)

end Scaled

end Destructure
