/-
  Destructure/Value/Show.lean
  ===========================
  **Values as messages show them** — every value has a text from which its kind
  and content can be told: lists in brackets, tuples in parentheses, texts
  quoted, element values behind the name of their type. A dictionary shows its
  entries in the order in which they were made.

  Some values cannot be written: one that shows an integer with too many digits,
  or a sequence that gives no text for itself. Of a long array only the elements
  that are shown matter.

  Mirrors the `repr` of candidates in the messages of the program.
-/
import Destructure.Number.Reading
import Destructure.Value.Grid
import Destructure.Text.Quoted

namespace Destructure

/-! ### Numbers -/

/-- The least natural that has too many digits to be written. -/
def Value.writtenLimit : Nat := Nat.pow 10 integerDigitLimit

def Value.isWritableInteger (n : Int) : Bool := n.natAbs < Value.writtenLimit

def showInteger (n : Int) : Except Fault String :=
  if Value.isWritableInteger n then .ok (toString n) else .error .badValue

def FloatType.layout : FloatType → FloatLayout
  | float16 => .half
  | float32 => .single
  | float64 => .plain
  | longdouble => .extended

/-- The widest numbers are shown in quotes. -/
def showElementFloat (type : FloatType) (x : Binary) : String :=
  match type with
  | .longdouble => "np.longdouble('" ++ type.layout.text x ++ "')"
  | _ => "np." ++ type.name ++ "(" ++ type.layout.text x ++ ")"

def Number.show : Number → Except Fault String
  | integer n => showInteger n
  | float x => .ok (FloatLayout.plain.text x)
  | fraction q => do
    return "Fraction(" ++ (← showInteger q.num) ++ ", " ++ (← showInteger q.den) ++ ")"
  | elementInteger type n => .ok ("np." ++ type.name ++ "(" ++ toString n ++ ")")
  | elementFloat type x => .ok (showElementFloat type x)

/-- A complex number: the imaginary part alone where the real part is a positive
    zero, both with a sign between them otherwise. -/
def showComplex (re im : Binary) : String :=
  let part := FloatLayout.complexPart.text
  let hasReal := match re with
    | .finite false 0 _ => false
    | _ => true
  if hasReal then
    "(" ++ part re ++ (if im.isNegative then "" else "+") ++ part im ++ "j)"
  else part im ++ "j"

/-- A duration; one that is no time is named in quotes. -/
def showDuration (unit : TimeUnit) (count : Option Int) : String :=
  "np.timedelta64(" ++ (match count with
    | some n => toString n
    | none => "'NaT'") ++ (if unit.name = "" then "" else ",'" ++ unit.name ++ "'") ++ ")"

/-! ### Sequences -/

/-- A sequence by the texts of its items. A bare sequence gives its text itself. -/
def SequenceKind.enclose (kind : SequenceKind) (items : Except Fault (List String)) :
    Except Fault String :=
  match kind with
  | list => do return "[" ++ ", ".intercalate (← items) ++ "]"
  | tuple => do
    match ← items with
    | [s] => return "(" ++ s ++ ",)"
    | ss => return "(" ++ ", ".intercalate ss ++ ")"
  | deque => do return "deque([" ++ ", ".intercalate (← items) ++ "])"
  | bare text =>
    match text with
    | some s => .ok s
    | none => .error .badValue

def showRange (start stop step : Int) : Except Fault String := do
  let step ← if step = 1 then pure "" else (", " ++ ·) <$> showInteger step
  return "range(" ++ (← showInteger start) ++ ", " ++ (← showInteger stop) ++ step ++ ")"

/-- The elements of a typed array as words of one width. -/
def typedWords (type : ElementType) (isScalar : Bool) (elements : List Value) :
    List (List Char) :=
  match type with
  | .integer _ => integerWords (elements.map fun
      | .number (.elementInteger _ n) => n
      | _ => 0)
  | .float t => t.format.columnWords (elements.map fun
      | .number (.elementFloat _ x) => x
      | _ => .nan)
  | .duration _ => durationWords (elements.map fun
      | .duration _ count => count
      | _ => none)
  | .bool => elements.map fun
      | .elementBool true => if isScalar then "True".toList else " True".toList
      | _ => "False".toList
  | .text _ => elements.map fun
      | .elementText t => t.quoted.toList
      | _ => []
  | .object => []

mutual

def Value.show : Value → Except Fault String
  | .none => .ok "None"
  | .bool b => .ok (if b then "True" else "False")
  | .number n => n.show
  | .complex re im => .ok (showComplex re im)
  | .decimal d => .ok ("Decimal('" ++ d.text ++ "')")
  | .text t => .ok t.quoted
  | .bytes mutable bs =>
    .ok (if mutable then "bytearray(" ++ quotedBytes true bs ++ ")" else quotedBytes false bs)
  | .sequence kind items => kind.enclose (showItems items)
  | .range start stop step => showRange start stop step
  | .dict entries => do
    return "\x7b" ++ ", ".intercalate (← showEntries entries) ++ "\x7d"
  | .elementBool b => .ok (if b then "np.True_" else "np.False_")
  | .elementText t => .ok ("np.str_(" ++ t.quoted ++ ")")
  | .duration unit count => .ok (showDuration unit count)
  | .array type shape elements => do
    return arrayText type shape (← match type with
      | .object => (shownElements shape (showObjects elements)).mapM id
      | _ => .ok (typedWords type shape.isEmpty (shownElements shape elements)))

def showItems : List Value → Except Fault (List String)
  | [] => .ok []
  | v :: vs => do return (← v.show) :: (← showItems vs)

def showEntries : List (Value × Value) → Except Fault (List String)
  | [] => .ok []
  | (k, v) :: es => do
    return ((← k.show) ++ ": " ++ (← v.show)) :: (← showEntries es)

/-- The elements of an object array, each by itself; a list among them is named, lest
    it be taken for a row. -/
def showObjects : List Value → List (Except Fault (List Char))
  | [] => []
  | v :: vs =>
    (match v with
      | .sequence .list _ => do return ("list(" ++ (← v.show) ++ ")").toList
      | _ => do return (← v.show).toList) :: showObjects vs

end

end Destructure
