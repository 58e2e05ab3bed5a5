/-
  Destructure/Number/ScaledArithmetic.lean
  ========================================
  **Arithmetic of decimals** — a sum keeps the finer of two scales and a product
  adds them up, so that zeros at the end survive. Results are exact as far as
  twenty-eight digits hold them and rounded to that many otherwise, a tie going
  to the even digit; a result below the least number loses digits, one above the
  greatest is an overflow. An operation without a meaning, such as the sum of
  opposite infinities, has no result; a quiet `NaN` is passed on.

  Mirrors what functions handed to the program compute with decimals, in the
  context that they start with.
-/
import Destructure.Fault
import Destructure.Number.Scaled

namespace Destructure

/-! ### Results -/

def scaledPrecision : Nat := 28

/-- The greatest place that a result can begin at. -/
def greatestResultPlace : Int := 999999

/-- The least place that a result can end at: that of the last digit of the least
    number that has all of its digits. -/
def leastResultPlace : Int := -999999 - scaledPrecision + 1

/-- The digits without the last `n` of them, rounded. -/
def withoutDigits (digits n : Nat) : Nat :=
  if decimalWidth digits < n then 0 else roundHalfEven digits (Nat.pow 10 n)

def Decimal.rounded (d : Decimal) : Decimal :=
  let excess := max (decimalWidth d.digits - scaledPrecision) (leastResultPlace - d.exponent).toNat
  let digits := withoutDigits d.digits excess
  if digits = Nat.pow 10 scaledPrecision then ⟨digits / 10, d.exponent + excess + 1⟩
  else ⟨digits, d.exponent + excess⟩

namespace Scaled

/-- The decimal as a result. The scale of a zero is brought into the range of the
    places of results. -/
def result (negative : Bool) (d : Decimal) : Except Fault Scaled :=
  if d.digits = 0 then
    .ok (finite negative ⟨0, max leastResultPlace (min greatestResultPlace d.exponent)⟩)
  else
    let d := d.rounded
    if d.digits ≠ 0 ∧ greatestResultPlace < d.scale then .error .decimalOverflow
    else .ok (finite negative d)

/-- A quiet `NaN` as a result, with the last digits of the number it carries. -/
def passedOn : Scaled → Scaled
  | nan negative signalling payload =>
    nan negative signalling (payload % Nat.pow 10 scaledPrecision)
  | d => d

/-- The result of an operation for operands that are no numbers: a quiet `NaN` is
    passed on, the left one first. -/
def orNaN (a b : Scaled) (r : Except Fault Scaled) : Except Fault Scaled :=
  if a.isSignalling || b.isSignalling then .error .undefinedResult
  else if a.isNaN then .ok a.passedOn
  else if b.isNaN then .ok b.passedOn
  else r

/-! ### Operations -/

/-- A decimal that may stand for a finer one beside a coarser one: all that lies
    far below the digits of the result weighs the same. -/
def besideCoarse (coarse fine : Decimal) : Decimal :=
  let width := decimalWidth coarse.digits
  let place := coarse.exponent + min (-1) ((width : Int) - scaledPrecision - 2)
  if coarse.digits = 0 then fine
  else if fine.digits = 0 then ⟨0, max fine.exponent (coarse.exponent - scaledPrecision - 1)⟩
  else if fine.scale < place then ⟨1, place⟩
  else fine

/-- The sum of two finite decimals on the scale of the finer one, which is the
    second. A sum that vanishes is negative only if both are. -/
def addOnScale (m : Bool) (coarse : Decimal) (n : Bool) (fine : Decimal) : Except Fault Scaled :=
  let fine := besideCoarse coarse fine
  let signed (negative : Bool) (k : Nat) : Int := if negative then -(k : Int) else k
  let sum := signed m (coarse.onScale fine.exponent) + signed n fine.digits
  result (sum < 0 || (sum == 0 && m && n)) ⟨sum.natAbs, fine.exponent⟩

/-- The sum of two decimals. -/
def add (a b : Scaled) : Except Fault Scaled :=
  orNaN a b <| match a, b with
    | infinite m, infinite n => if m == n then .ok a else .error .undefinedResult
    | infinite _, _ => .ok a
    | _, infinite _ => .ok b
    | finite m d, finite n e =>
      if d.exponent < e.exponent then addOnScale n e m d else addOnScale m d n e
    | _, _ => .error .undefinedResult

def mul (a b : Scaled) : Except Fault Scaled :=
  orNaN a b <| match a, b with
    | finite m d, finite n e => result (m != n) ⟨d.digits * e.digits, d.exponent + e.exponent⟩
    | _, _ =>
      if a.isZero || b.isZero then .error .undefinedResult
      else .ok (infinite (a.isNegative != b.isNegative))

/-- The decimal with the other sign; the negative of a zero is positive. -/
def neg (a : Scaled) : Except Fault Scaled :=
  orNaN a a <| match a with
    | finite negative d => result (!negative && d.digits != 0) d
    | _ => .ok (infinite !a.isNegative)

end Scaled

end Destructure
