/-
  Destructure/Number/Quantity.lean
  ================================
  **What a number stands for** — an exact rational, one of the two infinities,
  or no number at all. Numbers of different representations are compared by
  their quantities, so `1`, `1.0` and `2/2` are equal while `0.1` and the
  fraction one tenth are not. `nan` differs from everything, itself included,
  and is neither below nor above anything.

  Mirrors what the program compares when `LiteralMatcher.defined_at` asks
  whether two numbers are equal.
-/

namespace Destructure

/-- The exact meaning of a number. -/
inductive Quantity where
  | nan
  | infinite (negative : Bool)
  | finite (q : Rat)
deriving DecidableEq

namespace Quantity

def equal : Quantity → Quantity → Bool
  | infinite a, infinite b => a == b
  | finite p, finite q => p == q
  | _, _ => false

def below : Quantity → Quantity → Bool
  | nan, _ | _, nan => false
  | infinite a, infinite b => a && !b
  | infinite a, finite _ => a
  | finite _, infinite b => !b
  | finite p, finite q => p < q

end Quantity

end Destructure
