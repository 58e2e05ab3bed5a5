/-
  Destructure/Value/Assembly.lean
  ===============================
  **Values from their parts** — parts that do not fit together are refused: a
  fraction over zero, a range without a step, an integer outside the range of its
  type, elements that do not fill their shape, half a byte.

  Mirrors how candidates of the program are made.
-/
import Destructure.Value.Operand

namespace Destructure

/-- The bytes that pairs of hexadecimal digits write. Before and behind a pair there may
    be blanks, which like the digits have to be ASCII characters. -/
def bytesOfHex? : List Char → Option (List UInt8)
  | [] => some []
  | [c] => if isNumberBlank c && c.toNat < 0x80 then some [] else none
  | c :: d :: cs =>
    if isNumberBlank c && c.toNat < 0x80 then bytesOfHex? (d :: cs)
    else do return .ofNat (16 * (← hexDigit? c) + (← hexDigit? d)) :: (← bytesOfHex? cs)

namespace Value

/-- A fraction in lowest terms. -/
def ofQuotient (num den : Int) : Except Fault Value :=
  if den = 0 then .error .divisionByZero else .ok (number (.fraction (num / den : Rat)))

/-- The range with three bounds. -/
def ofBounds (start stop step : Int) : Except Fault Value :=
  if step = 0 then .error .badValue else .ok (range start stop step)

def ofInteger (type : IntegerType) (n : Int) : Except Fault Value :=
  if type.holds n then .ok (number (.elementInteger type n)) else .error .overflow

def ofBinary (type : FloatType) (x : Binary) : Value :=
  number (.elementFloat type (type.format.convert x))

/-- A text as it comes back from an array: zeros at its end are lost. -/
def withoutTrailingZeros : Value → Value
  | elementText t => elementText (t.reverse.dropWhile (·.val == 0)).reverse
  | v => v

/-- An array of elements in row-major order. Texts are stored in the width of the
    longest. -/
def ofGrid (type : ElementType) (shape : List Nat) (elements : List Value) :
    Except Fault Value :=
  if shapeSize shape ≠ elements.length then .error .badValue
  else match type with
    | .text width =>
      let width := elements.foldl (fun w v => max w ((v.text?.map (·.length)).getD 0)) width
      .ok (array (.text width) shape (elements.map withoutTrailingZeros))
    | _ => .ok (array type shape elements)

end Value

end Destructure
