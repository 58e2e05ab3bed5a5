/-
  Destructure/Text/CodePoint.lean
  ===============================
  **Text that a candidate can hold** — a sequence of code points. A `String`
  holds scalar values only, while an escape in JSON can write one half of a
  surrogate pair alone; such a text is compared, ordered and written out like
  any other, so candidates hold `Text`.

  Mirrors the texts that candidates of the program are and hold.
-/

namespace Destructure

/-- A Unicode code point, surrogates included. -/
abbrev CodePoint := Fin 0x110000

/-- A sequence of code points. -/
abbrev Text := List CodePoint

def CodePoint.ofChar (c : Char) : CodePoint :=
  ⟨c.toNat, by
    have h := c.valid
    simp only [UInt32.isValidChar, Nat.isValidChar] at h
    have : c.toNat = c.val.toNat := rfl
    omega⟩

/-- The character of a code point; a surrogate has none and gives the
    replacement character. -/
def CodePoint.toChar (c : CodePoint) : Char :=
  if 0xd800 ≤ c.val ∧ c.val < 0xe000 then Char.ofNat 0xfffd else Char.ofNat c.val

def Text.ofString (s : String) : Text := s.toList.map CodePoint.ofChar

def Text.toString (t : Text) : String := String.ofList (t.map CodePoint.toChar)

/-- The order of texts: by the first code point that differs, a shorter text
    before its continuations. -/
def Text.lt : Text → Text → Bool
  | _, [] => false
  | [], _ :: _ => true
  | a :: s, b :: t => a < b || (a == b && Text.lt s t)

end Destructure
