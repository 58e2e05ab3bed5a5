/-
  Destructure/Text/Quoted.lean
  ============================
  **Quoted text** — how a text is shown inside a message: between single quotes,
  or between double quotes when it holds a single quote and no double one. The
  backslash and the quote in use are escaped with a backslash, tab, newline and
  carriage return by their letters, and every other character without a printed
  form by its code in hexadecimal, with two, four or eight digits as it needs.
  Bytes are shown the same way behind a `b`, all above 0x7e by their code; in
  bytes that can be changed the single quote is escaped between any quotes.

  Mirrors the `repr` of texts and bytes in what `PartialFunction.__call__`,
  `CaseMatcher._no_match`, `CompiledPattern.bindings` and the `__repr__` methods
  of the program say.
-/
import Destructure.Text.CodePoint
import Destructure.Text.Unprintable

namespace Destructure

def hexDigits (width n : Nat) : List Char :=
  (List.range width).reverse.map fun i => Nat.digitChar (n / Nat.pow 16 i % 16)

/-- The escape of a code point by its code, in the shortest of the three
    widths. -/
def codeEscape (c : Nat) : List Char :=
  if c < 0x100 then '\\' :: 'x' :: hexDigits 2 c
  else if c < 0x10000 then '\\' :: 'u' :: hexDigits 4 c
  else '\\' :: 'U' :: hexDigits 8 c

/-- How a code point is shown where quotes of the kind `escaped` are escaped. -/
def quotedPoint (printable : Nat → Bool) (escaped c : Nat) : List Char :=
  if c = escaped ∨ c = 0x5c then ['\\', Char.ofNat c]
  else if c = 0x09 then ['\\', 't']
  else if c = 0x0a then ['\\', 'n']
  else if c = 0x0d then ['\\', 'r']
  else if printable c then [Char.ofNat c]
  else codeEscape c

/-- The quote that a text is shown between: a double one if it holds single
    quotes only. -/
def quoteFor (cs : List Nat) : Nat :=
  if cs.contains 0x27 && !cs.contains 0x22 then 0x22 else 0x27

/-- The code points `cs` between quotes of the kind `quote`, those of the kind
    `escaped` escaped. -/
def quotedPoints (printable : Nat → Bool) (quote escaped : Nat) (cs : List Nat) : List Char :=
  Char.ofNat quote :: cs.flatMap (quotedPoint printable escaped) ++ [Char.ofNat quote]

def Text.quoted (t : Text) : String :=
  let cs := t.map (·.val)
  String.ofList (quotedPoints isPrintable (quoteFor cs) (quoteFor cs) cs)

def quoted (s : String) : String := (Text.ofString s).quoted

def isPrintableByte (c : Nat) : Bool := 0x20 ≤ c && c < 0x7f

def quotedBytes (mutable : Bool) (bs : List UInt8) : String :=
  let cs := bs.map (·.toNat)
  let escaped := if mutable then 0x27 else quoteFor cs
  String.ofList ('b' :: quotedPoints isPrintableByte (quoteFor cs) escaped cs)

end Destructure
