/-
  Destructure/Number/Reading.lean
  ===============================
  **Numbers read from text** — decimal notation with the digits of any script.
  Blanks around the number are dropped, and an underscore may stand between two
  digits. An integer of more than 4300 digits is refused; a floating-point
  number is the binary number nearest to the decimal that is written, whatever
  its length.

  Mirrors the conversions that `LiteralParser.parse_number` and the reading of
  JSON in `main` make.
-/
import Destructure.Number.Layout
import Destructure.Text.DecimalDigit

namespace Destructure

def isNumberBlank (c : Char) : Bool :=
  let n := c.toNat
  (0x09 ≤ n && n ≤ 0x0d) || n == 0x20 || n == 0x85 || n == 0xa0 || n == 0x1680 ||
    (0x2000 ≤ n && n ≤ 0x200a) || n == 0x2028 || n == 0x2029 || n == 0x202f ||
    n == 0x205f || n == 0x3000

def trimBlanks (isBlank : Char → Bool) (cs : List Char) : List Char :=
  ((cs.dropWhile isBlank).reverse.dropWhile isBlank).reverse

/-- The characters without their underscores, each of which has to stand between
    two digits; `afterDigit` tells whether a digit stands just before. -/
def ungroup? (afterDigit : Bool) : List Char → Option (List Char)
  | [] => some []
  | '_' :: c :: cs =>
    if afterDigit && isDecimalDigit c then (ungroup? true cs).map (c :: ·) else none
  | c :: cs => if c = '_' then none else (ungroup? (isDecimalDigit c) cs).map (c :: ·)

def splitSign : List Char → Bool × List Char
  | '-' :: cs => (true, cs)
  | '+' :: cs => (false, cs)
  | cs => (false, cs)

/-! ### Integers -/

/-- Why a text is no integer. -/
inductive IntegerFault where
  | malformed
  | tooManyDigits (count : Nat)
deriving DecidableEq, Repr

/-- The most digits an integer may be written with. -/
def integerDigitLimit : Nat := 4300

def readInteger (cs : List Char) : Except IntegerFault Int :=
  match ungroup? false (trimBlanks isNumberBlank cs) with
  | none => .error .malformed
  | some cs =>
    let (negative, ds) := splitSign cs
    if ds.isEmpty || !ds.all isDecimalDigit then .error .malformed
    else if integerDigitLimit < ds.length then .error (.tooManyDigits ds.length)
    else .ok (if negative then -(digitsValue ds : Int) else digitsValue ds)

/-! ### Floating-point numbers -/

/-- The binary number nearest to `digits * 10 ^ exponent`. A number beyond the
    range on either side is decided by its scale alone. -/
def BinaryFormat.ofDecimal (f : BinaryFormat) (negative : Bool) (d : Decimal) : Binary :=
  if d.digits = 0 ∨ d.scale < -400 then .finite negative 0 f.leastExponent
  else if 400 < d.scale then .infinite negative
  else
    let (n, den) := shiftDown d.digits 1 (-d.exponent)
    f.nearest negative n den

/-- The exponent written at the head of the characters, if nothing else follows
    it. -/
def readExponent? : List Char → Option Int
  | [] => some 0
  | c :: cs =>
    if c = 'e' ∨ c = 'E' then
      let (negative, ds) := splitSign cs
      if ds.isEmpty || !ds.all isDecimalDigit then none
      else some (if negative then -(digitsValue ds : Int) else digitsValue ds)
    else none

/-- The unsigned decimal written by the characters, with a point or an exponent
    or neither. -/
def readDecimal? (cs : List Char) : Option Decimal :=
  let whole := cs.takeWhile isDecimalDigit
  let rest := cs.dropWhile isDecimalDigit
  let (fraction, rest) := match rest with
    | '.' :: cs => (cs.takeWhile isDecimalDigit, cs.dropWhile isDecimalDigit)
    | _ => ([], rest)
  if whole.isEmpty && fraction.isEmpty then none
  else (readExponent? rest).map fun x =>
    ⟨digitsValue (whole ++ fraction), x - fraction.length⟩

/-- The floating-point number written in a text, special values by name
    included. -/
def readFloat? (cs : List Char) : Option Binary :=
  match ungroup? false (trimBlanks isNumberBlank cs) with
  | none => none
  | some cs =>
    let (negative, body) := splitSign cs
    match String.ofList (body.map Char.toLower) with
    | "inf" | "infinity" => some (.infinite negative)
    | "nan" => some .nan
    | _ => (readDecimal? body).map (BinaryFormat.double.ofDecimal negative)

def hexDigit? (c : Char) : Option Nat :=
  if c.isDigit then some (c.toNat - 48)
  else if 'a' ≤ c ∧ c ≤ 'f' then some (c.toNat - 87)
  else if 'A' ≤ c ∧ c ≤ 'F' then some (c.toNat - 55)
  else none

end Destructure
