/-
  Destructure/Pattern/Literal.lean
  ================================
  **Literals** — what the lexeme of a number or a string stands for. A number
  with a point or an exponent is floating, any other is an integer. In a string a
  backslash and the character behind it stand for one character of a short list;
  no other character may follow a backslash.

  Mirrors `LiteralParser.parse_number`, `LiteralParser.parse_string` and
  `_resolve_escape` of the program.
-/
import Destructure.Number.Reading
import Destructure.Text.Quoted

namespace Destructure

/-- The value of a literal. -/
inductive Literal where
  | integer (n : Int)
  | float (x : Binary)
  | text (s : String)
deriving DecidableEq, Repr

/-- The kinds of literal. -/
inductive LiteralKind where
  | integer
  | float
  | string
deriving DecidableEq, Repr

/-- A literal as it is written. -/
structure Lexeme where
  kind : LiteralKind
  text : List Char
deriving DecidableEq, Repr

/-- Why a literal has no value. -/
inductive LiteralFault where
  | number (fault : IntegerFault)
  | notQuoted (text : String)
  | unknownEscape (c : Char)
deriving DecidableEq, Repr

def LiteralFault.message : LiteralFault → String
  | number .malformed => "not a number"
  | number (.tooManyDigits n) =>
    "Exceeds the limit (" ++ toString integerDigitLimit ++
      " digits) for integer string conversion: value has " ++ toString n ++
      " digits; use sys.set_int_max_str_digits() to increase the limit"
  | notQuoted t => "not a quoted string: " ++ quoted t
  | unknownEscape c => "unknown escape `\\" ++ String.singleton c ++ "`"

/-! ### Numbers -/

def isFloating (cs : List Char) : Bool :=
  cs.any fun c => c = '.' || c = 'e' || c = 'E'

def readNumber (cs : List Char) : Except LiteralFault Literal :=
  if isFloating cs then
    match readFloat? cs with
    | some x => .ok (.float x)
    | none => .error (.number .malformed)
  else
    match readInteger cs with
    | .ok n => .ok (.integer n)
    | .error fault => .error (.number fault)

/-! ### Strings -/

/-- The character that an escape stands for, by the character behind its
    backslash. -/
def escapeValue? : Char → Option Char
  | '\\' => some '\\'
  | '\'' => some '\''
  | '"' => some '"'
  | 'n' => some '\n'
  | 't' => some '\t'
  | 'r' => some '\r'
  | '0' => some '\x00'
  | _ => none

/-- The characters that the inside of a string stands for. A backslash at the
    very end stands for itself. -/
def unescape : List Char → Except Char (List Char)
  | [] => .ok []
  | '\\' :: c :: cs =>
    match escapeValue? c with
    | none => .error c
    | some v => (unescape cs).map (v :: ·)
  | c :: cs => (unescape cs).map (c :: ·)

def unquote? : List Char → Option (List Char)
  | q :: c :: cs =>
    if (q = '"' ∨ q = '\'') ∧ (c :: cs).getLast? = some q then some (c :: cs).dropLast else none
  | _ => none

def readString (cs : List Char) : Except LiteralFault Literal :=
  match unquote? cs with
  | none => .error (.notQuoted (String.ofList cs))
  | some inside =>
    match unescape inside with
    | .ok s => .ok (.text (String.ofList s))
    | .error c => .error (.unknownEscape c)

def Lexeme.value (l : Lexeme) : Except LiteralFault Literal :=
  match l.kind with
  | .integer | .float => readNumber l.text
  | .string => readString l.text

end Destructure
