/-
  Destructure/Value/Grid.lean
  ===========================
  **Grids of elements** — how the elements of an array are laid out. Numbers share
  a width, so that they stand in columns: integers are set flush right, and
  floating-point numbers are set at the point, with at most eight digits behind
  it. If a number is too large or too small for that, or the numbers are too far
  apart, all of them are written with an exponent. The words of a row are
  separated by commas and broken before the margin; rows stand below each other
  in as many brackets as the array has dimensions, and of an array with more than
  a thousand elements only the corners are shown, laid out as if they were all.

  Mirrors the `repr` of arrays in the messages of the program.
-/
import Destructure.Value.Sequence

namespace Destructure

/-! ### Words of one width -/

def padLeft (width : Nat) (cs : List Char) : List Char :=
  List.replicate (width - cs.length) ' ' ++ cs

def padRight (width : Nat) (cs : List Char) : List Char :=
  cs ++ List.replicate (width - cs.length) ' '

def widest (ws : List Nat) : Nat := ws.foldl max 0

def integerText (n : Int) : List Char :=
  if n < 0 then '-' :: decimalDigits n.natAbs else decimalDigits n.natAbs

def flushRight (words : List (List Char)) : List (List Char) :=
  words.map (padLeft (widest (words.map (·.length))))

def integerWords (ns : List Int) : List (List Char) := flushRight (ns.map integerText)

/-- Counts of a unit of time; one that is not known is named. -/
def durationWords (counts : List (Option Int)) : List (List Char) :=
  flushRight (counts.map fun
    | some n => integerText n
    | none => "'NaT'".toList)

/-! ### Floating-point columns -/

def columnPrecision : Nat := 8

/-- The power of ten from which on a column is written with exponents. -/
def BinaryFormat.columnLimit (f : BinaryFormat) : Nat :=
  if f = .half then 3 else if f = .single then 6 else 8

/-- The value `s * 2 ^ e` on the grid of tenths to the power `j`. -/
def decimalOnGrid (s : Nat) (e j : Int) : Decimal :=
  let (n, d) := scaleDown s 1 (-e)
  let (n, d) := shiftDown n d j
  (Decimal.mk (roundHalfEven n d) j).trim 400

/-- The shortest decimal, or the nearest one with the column's precision behind
    the point if that is shorter. -/
def BinaryFormat.columnDecimal (f : BinaryFormat) (s : Nat) (e : Int) : Decimal :=
  let d := f.shortest s e
  if d.exponent < -(columnPrecision : Int) then decimalOnGrid s e (-columnPrecision) else d

/-- The number `s * 2 ^ e` on the grid of tenths to the power `j`: the one of its
    two neighbours that reads back, or the nearest if both do or neither does. -/
def BinaryFormat.onPlace (f : BinaryFormat) (s : Nat) (e j : Int) : Decimal :=
  let (n, d) := scaleDown s 1 (-e)
  let (n, d) := shiftDown n d j
  let low := n / d
  let lowOk := f.readsBack s e low j
  let highOk := f.readsBack s e (low + 1) j
  ⟨if lowOk == highOk then roundHalfEven n d else if lowOk then low else low + 1, j⟩

/-- The power of ten of the first digit of `s * 2 ^ e`. -/
def firstPlace (s : Nat) (e : Int) : Int :=
  let (n, d) := scaleDown s 1 (-e)
  floorLog10 n d

/-- The number with so many digits behind the first, zeros at the end left
    out. -/
def BinaryFormat.scientificDecimal (f : BinaryFormat) (precision s : Nat) (e : Int) : Decimal :=
  if s = 0 then ⟨0, 0⟩ else (f.onPlace s e (firstPlace s e - precision)).trim 400

/-- The shortest decimal, or the one with the column's precision behind the first
    digit if that is shorter. -/
def BinaryFormat.exponentDecimal (f : BinaryFormat) (s : Nat) (e : Int) : Decimal :=
  let d := f.shortest s e
  if columnPrecision + 1 < decimalWidth d.digits then f.scientificDecimal columnPrecision s e
  else d

def finiteParts (xs : List Binary) : List (Bool × Nat × Int) :=
  xs.filterMap fun
    | .finite negative s e => some (negative, s, e)
    | _ => none

/-- The magnitude below which a number is written with an exponent, as a number
    of the format. -/
def BinaryFormat.smallestPlain (f : BinaryFormat) : Quantity :=
  (f.convert (BinaryFormat.double.ofRat (mkRat 1 10000))).quantity

/-- Whether a column is written with exponents. The greatest number may be a
    thousand times the least one, both the bound and the quotient being numbers of
    the format. -/
def BinaryFormat.needsExponents (f : BinaryFormat) (xs : List Binary) : Bool :=
  let magnitudes := (finiteParts xs).filterMap fun (_, s, e) =>
    if s = 0 then none else some (Binary.magnitude s e)
  match magnitudes with
  | [] => false
  | m :: ms =>
    let greatest := ms.foldl (fun a b => if a < b then b else a) m
    let least := ms.foldl (fun a b => if b < a then b else a) m
    (Nat.pow 10 f.columnLimit : Rat) ≤ greatest ||
      Quantity.below (.finite least) f.smallestPlain ||
      Quantity.below (.finite 1000) (f.ofRat (greatest / least)).quantity

def signed (negative : Bool) (cs : List Char) : List Char := if negative then '-' :: cs else cs

/-- The digits before the point and those behind it of the numbers of a
    positional column. -/
def BinaryFormat.columnParts (f : BinaryFormat) (part : Bool × Nat × Int) :
    List Char × List Char :=
  let (negative, s, e) := part
  let (whole, fraction) := (f.columnDecimal s e).parts
  (signed negative whole, fraction)

/-- The digit before the point, those behind it and the exponent of a decimal in
    a column with exponents. -/
def exponentParts (negative : Bool) (d : Decimal) : List Char × List Char × Int :=
  match decimalDigits d.digits with
  | [] => ([], [], 0)
  | c :: cs => (signed negative [c], cs, if d.digits = 0 then 0 else d.scale)

/-- Special values in a column that is `right + 1` wide from the point on. -/
def specialWord (left right : Nat) (word : List Char) : List Char := padLeft (left + right + 1) word

/-- The columns that the numbers of a column need left of the point. -/
def leftWidth (xs : List Binary) (whole right : Nat) : Nat :=
  let words := xs.map fun
    | .nan => 3
    | .infinite _ => 3
    | .finite .. => 0
  if words.all (· == 0) then whole
  else
    let infinity := if xs.contains (.infinite true) then 4 else 3
    max whole (max (3 - (right + 1)) (infinity - (right + 1)))

def BinaryFormat.columnWords (f : BinaryFormat) (xs : List Binary) : List (List Char) :=
  let finite := finiteParts xs
  let write (left right : Nat) (number : Bool × Nat × Int → List Char) : List (List Char) :=
    xs.map fun
      | .nan => specialWord left right ['n', 'a', 'n']
      | .infinite negative => specialWord left right (signed negative ['i', 'n', 'f'])
      | .finite negative s e => number (negative, s, e)
  if f.needsExponents xs then
    let parts := finite.map fun (negative, s, e) => exponentParts negative (f.exponentDecimal s e)
    let precision := widest (parts.map (·.2.1.length))
    let exponentWidth := max 2 (widest (parts.map fun p => (decimalDigits p.2.2.natAbs).length))
    let right := exponentWidth + 2 + precision
    let left := leftWidth xs (widest (parts.map (·.1.length))) right
    write left right fun (negative, s, e) =>
      let (whole, fraction, x) := exponentParts negative (f.scientificDecimal precision s e)
      let ds := decimalDigits x.natAbs
      padLeft left whole ++ '.' :: fraction ++ List.replicate (precision - fraction.length) '0' ++
        'e' :: (if x < 0 then '-' else '+') ::
        (List.replicate (exponentWidth - ds.length) '0' ++ ds)
  else
    let parts := finite.map f.columnParts
    let right := widest (parts.map (·.2.length))
    let left := leftWidth xs (widest (parts.map (·.1.length))) right
    write left right fun part =>
      let (whole, fraction) := f.columnParts part
      padLeft left whole ++ '.' :: padRight right fraction

/-! ### Rows and brackets -/

def gridWidth : Nat := 75

def gridThreshold : Nat := 1000

/-- How many elements are shown at each end of a longer array. -/
def gridEdge : Nat := 3

/-- The first and the last elements, or nothing where none would be left out. -/
def gridEnds? {α : Type} (xs : List α) : Option (List α × List α) :=
  if 2 * gridEdge < xs.length then some (xs.take gridEdge, xs.drop (xs.length - gridEdge))
  else none

def corners {α : Type} : List Nat → List α → List α
  | [], xs => xs
  | n :: shape, xs =>
    let rows := pieces (shapeSize shape) n xs
    match gridEnds? rows with
    | some (first, last) => (first ++ last).flatMap (corners shape)
    | none => rows.flatMap (corners shape)

def isSummarised (shape : List Nat) : Bool := gridThreshold < shapeSize shape

def shownElements {α : Type} (shape : List Nat) (xs : List α) : List α :=
  if isSummarised shape then corners shape xs else xs

def shownCount (summarised : Bool) (n : Nat) : Nat :=
  if summarised && 2 * gridEdge < n then 2 * gridEdge else n

/-- The words that stand for `n` elements, an ellipsis among them if some are left
    out. -/
def withEllipsis (summarised : Bool) (n : Nat) (ws : List (List Char)) : List (List Char) :=
  if summarised && 2 * gridEdge < n then ws.take gridEdge ++ ['.', '.', '.'] :: ws.drop gridEdge
  else ws

def withoutTrailingBlanks (line : List Char) : List Char :=
  (line.reverse.dropWhile (· == ' ')).reverse

/-- The lines of a word. Only an array within an array is a word of more than one
    line. -/
def wordLines : List Char → List (List Char)
  | [] => [[]]
  | c :: cs =>
    match wordLines cs with
    | [] => [[c]]
    | w :: ws => if c = '\n' then [] :: w :: ws else (c :: w) :: ws

/-- Words from left to right, broken before they would pass the margin; a line
    never stays empty for a word. The lines of a word stand below each other, and
    the next word is set behind the longest of them. -/
def wrapWords (indent width : Nat) : List Char → List (List Char) → List Char
  | line, [] => line
  | line, w :: ws =>
    let lines := wordLines w
    let wordWidth := widest (lines.map (·.length))
    let breaks := width < line.length + wordWidth && indent < line.length
    let written := if breaks then withoutTrailingBlanks line ++ ['\n'] else []
    let blanks := List.replicate (if breaks then indent else line.length) ' '
    let (written, line) := lines.tail.foldl
      (fun (written, line) l => (written ++ withoutTrailingBlanks line ++ ['\n'], blanks ++ l))
      (written, (if breaks then blanks else line) ++ lines.headD [])
    let line := line ++ List.replicate (wordWidth - (lines.getLastD []).length) ' '
    written ++ wrapWords indent width (if ws.isEmpty then line else line ++ [',', ' ']) ws

/-- The words of an array in their brackets, the first bracket at column
    `indent - 1`. -/
def gridText (summarised : Bool) (indent width : Nat) : List Nat → List (List Char) → List Char
  | [], ws => ws.flatten
  | [n], ws =>
    let blanks := List.replicate indent ' '
    let words := withEllipsis summarised n ws
    '[' :: (wrapWords indent (width - 1) blanks words).drop indent ++ [']']
  | n :: shape, ws =>
    let rowSize := shapeSize (shape.map (shownCount summarised))
    let rows := (pieces rowSize (shownCount summarised n) ws).map
      (gridText summarised (indent + 1) (width - 1) shape)
    let gap := ',' :: List.replicate shape.length '\n' ++ List.replicate indent ' '
    '[' :: gap.intercalate (withEllipsis summarised n rows) ++ [']']

/-! ### Whole arrays -/

def IntegerType.name (t : IntegerType) : String :=
  (if t.isSigned then "int" else "uint") ++ toString t.bits

/-- The name of the type of an array; the widest type goes by the bits that an element
    takes up. -/
def FloatType.name : FloatType → String
  | float16 => "float16"
  | float32 => "float32"
  | float64 => "float64"
  | longdouble => "float128"

namespace ElementType

def name : ElementType → String
  | integer t => t.name
  | float t => t.name
  | duration unit =>
    if unit.name = "" then "timedelta64" else "'timedelta64[" ++ unit.name ++ "]'"
  | bool => "bool"
  | text width => "'<U" ++ toString width ++ "'"
  | object => "object"

/-- The types that need not be named: their elements show them. -/
def isImplied : ElementType → Bool
  | integer .int64 | float .float64 | bool => true
  | _ => false

end ElementType

def shapeText (shape : List Nat) : String :=
  match shape with
  | [n] => "(" ++ toString n ++ ",)"
  | _ => "(" ++ ", ".intercalate (shape.map toString) ++ ")"

/-- An array of the given type and shape, by the words of the elements shown. The
    shape is named where the elements do not show it, the type where they do not show
    that; both go on a line of their own if the last line has no room for them. -/
def arrayText (type : ElementType) (shape : List Nat) (words : List (List Char)) : String :=
  let isEmpty := shapeSize shape == 0
  let body := if isEmpty then ['[', ']']
    else gridText (isSummarised shape) 7 (gridWidth - 1) shape words
  let showsShape := (isEmpty && shape != [0]) || isSummarised shape
  let showsType := isEmpty || !type.isImplied
  let extras := (if showsShape then ["shape=" ++ shapeText shape] else []) ++
    (if showsType then ["dtype=" ++ type.name] else [])
  let text := "array(" ++ String.ofList body
  if extras.isEmpty then text ++ ")"
  else
    let extra := ", ".intercalate extras ++ ")"
    let lastLine := (text.toList.reverse.takeWhile (· != '\n')).length + 1
    let spacer := if gridWidth < lastLine + extra.length + 1 then "\n      " else " "
    text ++ "," ++ spacer ++ extra

end Destructure
