/-
  Destructure/Text/Span.lean
  ==========================
  **Places in a text** — an `Extent` is a pair of offsets into a text that is
  known from elsewhere; a `Span` carries its text along and can therefore name
  its line and column and draw a caret under itself. Offsets count code points.

  The offsets of a `Span` may come from outside, so they are integers: one below
  zero counts from the end of the text, one past the end stands at the end, as
  far as the text is cut by them. Columns and carets use the offset as it is
  given.

  Mirrors `Interval` of the program: its `text`, `line`, `column`,
  `show_position` and what it is as a string.
-/

namespace Destructure

/-- A stretch of a text by its offsets, `stop` excluded. -/
structure Extent where
  start : Nat
  stop : Nat
deriving DecidableEq, Repr

/-- A stretch of a given text, `stop` excluded. -/
structure Span where
  source : String
  start : Int
  stop : Int
deriving DecidableEq, Repr

/-- The extent as a place in `source`. -/
def Extent.within (e : Extent) (source : String) : Span := ⟨source, e.start, e.stop⟩

/-- Where a cut at offset `i` falls in a sequence of `n` elements: below zero it
    counts from the end, and it never leaves the sequence. -/
def cutOffset (n : Nat) (i : Int) : Nat :=
  if i < 0 then (n + i).toNat else min n i.toNat

theorem cutOffset_natCast {n k : Nat} (h : k ≤ n) : cutOffset n (k : Int) = k := by
  rw [cutOffset, if_neg (by omega), Int.toNat_natCast, Nat.min_eq_right h]

def cut {α : Type} (xs : List α) (start stop : Int) : List α :=
  (xs.take (cutOffset xs.length stop)).drop (cutOffset xs.length start)

namespace Span

def before (s : Span) : List Char :=
  s.source.toList.take (cutOffset s.source.toList.length s.start)

def text (s : Span) : String := String.ofList (cut s.source.toList s.start s.stop)

/-- The line the span starts on, counted from one. -/
def line (s : Span) : Nat := s.before.count '\n' + 1

def lineStart (s : Span) : Nat :=
  s.before.length - (s.before.reverse.takeWhile (· != '\n')).length

/-- The column the span starts at, counted from one. -/
def column (s : Span) : Int := s.start - s.lineStart + 1

def position (s : Span) : String := toString s.line ++ ":" ++ toString s.column

/-- The text with a caret under the start of the span. The caret is counted from
    the beginning of the text, whatever lines it has. -/
def caret (s : Span) : String :=
  s.source ++ "\n" ++ String.ofList (List.replicate s.start.toNat '~') ++ "^"

end Span

end Destructure
