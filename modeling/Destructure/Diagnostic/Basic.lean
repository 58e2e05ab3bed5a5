/-
  Destructure/Diagnostic/Basic.lean
  =================================
  **Diagnostics** — what is said about a pattern text: a message, the place it is
  about, and optional remarks. `Diagnostic.fragments` lays one out as lines of
  styled fragments: the message, the place, the line of the text with carets and
  a label under the place, and the remarks. Colour is a matter of writing the
  fragments; it never changes what they say.

  Mirrors `Error`, `_format_diagnostic`, `_append_annotations` and `_style` of
  the program.
-/
import Destructure.Text.Span

namespace Destructure

/-- A message about a pattern text. -/
structure Diagnostic where
  message : String
  span : Option Span
  code : Option String
  help : Option String
  note : Option String
  label : Option String
  sourceName : String
deriving DecidableEq, Repr

def defaultSourceName : String := "<pattern>"

/-! ### Styled fragments -/

/-- Terminal attributes. -/
inductive Attribute where
  | bold
  | red
  | blue
  | cyan
deriving DecidableEq, Repr

def Attribute.number : Attribute → String
  | bold => "1"
  | red => "31"
  | blue => "34"
  | cyan => "36"

def escapeSequence (number : String) : String := "\x1b[" ++ number ++ "m"

def resetSequence : String := escapeSequence "0"

/-- A piece of one line in one style. -/
structure Fragment where
  style : List Attribute
  text : String
deriving DecidableEq, Repr

def Fragment.write (colour : Bool) (f : Fragment) : String :=
  if colour && !f.style.isEmpty then
    String.join (f.style.map fun a => escapeSequence a.number) ++ f.text ++ resetSequence
  else f.text

def Fragment.plain (text : String) : Fragment := ⟨[], text⟩

def writeLines (colour : Bool) (lines : List (List Fragment)) : String :=
  "\n".intercalate (lines.map fun l => String.join (l.map (Fragment.write colour)))

/-! ### Layout -/

def row (n : Nat) (c : Char) : String := String.ofList (List.replicate n c)

def spoken (remark : Option String) : Option String := remark.filter (· ≠ "")

namespace Diagnostic

def heading (d : Diagnostic) : List Fragment :=
  let code := match spoken d.code with
    | some c => "[" ++ c ++ "]"
    | none => ""
  [⟨[.bold, .red], "error" ++ code⟩, ⟨[.bold], ": " ++ d.message⟩]

def remark (gutter : Nat) (title text : String) : List Fragment :=
  [⟨[.bold, .cyan], row (gutter + 1) ' ' ++ "= "⟩, ⟨[.bold], title ++ ": "⟩, .plain text]

def remarks (gutter : Nat) (d : Diagnostic) : List (List Fragment) :=
  let rows := (spoken d.help).toList.map (remark gutter "help") ++
    (spoken d.note).toList.map (remark gutter "note")
  if rows.isEmpty then []
  else [⟨[.bold, .blue], row (gutter + 1) ' ' ++ "|"⟩] :: rows

end Diagnostic

def Span.sourceLine (s : Span) : List Char :=
  (s.source.toList.splitOnP (· == '\n')).getD (s.line - 1) []

/-- How many carets stand under the span: its length as far as it lies on its
    first line, and one at least. -/
def Span.caretCount (s : Span) : Nat :=
  let lineStop := s.start + s.sourceLine.length - (s.column - 1)
  (max 1 (min s.stop lineStop - s.start)).toNat

def Span.carets (s : Span) : String :=
  row (s.column - 1).toNat ' ' ++ row s.caretCount '^'

def Span.gutter (s : Span) : Nat := (toString s.line).length

def Diagnostic.fragments (d : Diagnostic) : List (List Fragment) :=
  match d.span with
  | none =>
    [d.heading, [⟨[.bold, .blue], " --> "⟩, .plain "<unknown location>"]] ++ d.remarks 1
  | some s =>
    let gutter := s.gutter
    let label := match spoken d.label with
      | some l => " " ++ l
      | none => ""
    [d.heading,
     [⟨[.bold, .blue], row gutter ' ' ++ "--> "⟩, .plain (d.sourceName ++ ":" ++ s.position)],
     [⟨[.bold, .blue], row (gutter + 1) ' ' ++ "|"⟩],
     [⟨[.bold, .blue], toString s.line ++ " | "⟩, .plain (String.ofList s.sourceLine)],
     [⟨[.bold, .blue], row (gutter + 1) ' ' ++ "| "⟩, ⟨[.bold, .red], s.carets ++ label⟩]] ++
      d.remarks gutter

def Diagnostic.write (colour : Bool) (d : Diagnostic) : String :=
  writeLines colour d.fragments

end Destructure
