/-
  Destructure/Json/Reader.lean
  ============================
  **Reading JSON** — a value written as JSON, with `NaN` and the infinities by
  name as well. A number with a fraction or an exponent is floating, any other is
  an integer, which may not have more digits than integers may be written with.
  A text keeps half a surrogate pair that is written alone; of entries under one
  key the last counts, in the place of the first.

  The first character that cannot stand where it does is the fault; what is said
  about it names what was expected there, and its line, column and offset.

  Mirrors how `main` of the program reads its value.
-/
import Destructure.Number.Reading
import Destructure.Text.Span
import Destructure.Value.Basic

namespace Destructure

/-- What is wrong with a text that should be JSON. -/
inductive JsonCause where
  | byteOrderMark
  | expectedValue
  | expectedComma
  | expectedColon
  | expectedPropertyName
  | extraData
  | controlCharacter
  | invalidEscape
  | invalidUnicodeEscape
  | unterminatedString
deriving DecidableEq, Repr

def JsonCause.message : JsonCause → String
  | byteOrderMark => "Unexpected UTF-8 BOM (decode using utf-8-sig)"
  | expectedValue => "Expecting value"
  | expectedComma => "Expecting ',' delimiter"
  | expectedColon => "Expecting ':' delimiter"
  | expectedPropertyName => "Expecting property name enclosed in double quotes"
  | extraData => "Extra data"
  | controlCharacter => "Invalid control character at"
  | invalidEscape => "Invalid \\escape"
  | invalidUnicodeEscape => "Invalid \\uXXXX escape"
  | unterminatedString => "Unterminated string starting at"

/-- Why a text has no value: it is not JSON, or a number in it has too many
    digits. -/
inductive JsonFault where
  | malformed (cause : JsonCause) (offset : Nat)
  | tooManyDigits
deriving DecidableEq, Repr

/-- A place in the text: the offset of what is left, and what is left. -/
structure JsonCursor where
  offset : Nat
  rest : List Char

namespace JsonCursor

def skip (c : JsonCursor) (n : Nat) : JsonCursor := ⟨c.offset + n, c.rest.drop n⟩

def skipBlanks (c : JsonCursor) : JsonCursor :=
  c.skip (c.rest.takeWhile fun x => x = ' ' || x = '\t' || x = '\n' || x = '\r').length

def fault {α : Type} (c : JsonCursor) (cause : JsonCause) : Except JsonFault α :=
  .error (.malformed cause c.offset)

end JsonCursor

/-! ### Texts -/

/-- The value of four hexadecimal digits at the head of the characters. -/
def hexValue? : List Char → Option Nat
  | a :: b :: c :: d :: _ => do
    return ((← hexDigit? a) * 16 + (← hexDigit? b)) * 256 + (← hexDigit? c) * 16 + (← hexDigit? d)
  | _ => none

/-- A number as a code point; one that is none gives the replacement
    character. -/
def CodePoint.ofNat (n : Nat) : CodePoint :=
  if h : n < 0x110000 then ⟨n, h⟩ else ⟨0xfffd, by decide⟩

/-- The character that a short escape stands for, by the character behind its
    backslash. -/
def jsonEscape? : Char → Option Nat
  | '"' => some 0x22
  | '\\' => some 0x5c
  | '/' => some 0x2f
  | 'b' => some 0x08
  | 'f' => some 0x0c
  | 'n' => some 0x0a
  | 'r' => some 0x0d
  | 't' => some 0x09
  | _ => none

/-- The code point of the four digits behind the `\u` at a place, and how many
    characters behind the `u` it takes. A high surrogate joins with an escape of a
    low one behind it. Digits at the very end of the text do not count, for a text
    has to be closed behind them. -/
def readUnicodeEscape (c : JsonCursor) : Except JsonFault (CodePoint × Nat) :=
  let digits := c.rest.drop 2
  match hexValue? digits, digits.drop 4 with
  | none, _ | _, [] => (c.skip 1).fault .invalidUnicodeEscape
  | some high, '\\' :: 'u' :: rest =>
    if 0xd800 ≤ high ∧ high < 0xdc00 ∧ 4 < rest.length then
      match hexValue? rest with
      | none => (c.skip 7).fault .invalidUnicodeEscape
      | some low =>
        if 0xdc00 ≤ low ∧ low < 0xe000 then
          .ok (.ofNat (0x10000 + (high - 0xd800) * 0x400 + (low - 0xdc00)), 10)
        else .ok (.ofNat high, 4)
    else .ok (.ofNat high, 4)
  | some n, _ => .ok (.ofNat n, 4)

/-- The rest of a text whose opening quote is at offset `start`. -/
def readJsonText (start : Nat) : Nat → JsonCursor → Except JsonFault (Text × JsonCursor)
  | 0, _ => .error (.malformed .unterminatedString start)
  | fuel + 1, c =>
    match c.rest with
    | [] => .error (.malformed .unterminatedString start)
    | '"' :: _ => .ok ([], c.skip 1)
    | ['\\'] => .error (.malformed .unterminatedString start)
    | '\\' :: 'u' :: _ => do
      let (point, taken) ← readUnicodeEscape c
      let (t, c) ← readJsonText start fuel (c.skip (2 + taken))
      return (point :: t, c)
    | '\\' :: e :: _ =>
      match jsonEscape? e with
      | none => c.fault .invalidEscape
      | some n => do
        let (t, c) ← readJsonText start fuel (c.skip 2)
        return (.ofNat n :: t, c)
    | x :: _ =>
      if x.toNat < 0x20 then c.fault .controlCharacter
      else do
        let (t, c) ← readJsonText start fuel (c.skip 1)
        return (.ofChar x :: t, c)

/-! ### Numbers -/

def leadingDigits (cs : List Char) : List Char := cs.takeWhile Char.isDigit

/-- The fraction at the head of the characters: a point and digits, or
    nothing. -/
def jsonFraction : List Char → List Char
  | '.' :: cs => if (leadingDigits cs).isEmpty then [] else '.' :: leadingDigits cs
  | _ => []

/-- The exponent at the head of the characters: its letter, an optional sign and
    digits, or nothing. -/
def jsonExponent : List Char → List Char
  | e :: cs =>
    if e = 'e' ∨ e = 'E' then
      let sign := match cs with
        | '+' :: _ => ['+']
        | '-' :: _ => ['-']
        | _ => []
      let ds := leadingDigits (cs.drop sign.length)
      if ds.isEmpty then [] else e :: sign ++ ds
    else []
  | [] => []

/-- The whole part at the head of the characters: a zero, or digits that do not
    start with one. -/
def jsonWhole (cs : List Char) : List Char :=
  match cs with
  | '0' :: _ => ['0']
  | _ => leadingDigits cs

def readJsonNumber (c : JsonCursor) : Except JsonFault (Value × JsonCursor) :=
  let minus := if c.rest.head? = some '-' then ['-'] else []
  let whole := jsonWhole (c.rest.drop minus.length)
  if whole.isEmpty then c.fault .expectedValue
  else
    let fraction := jsonFraction (c.rest.drop (minus.length + whole.length))
    let exponent := jsonExponent (c.rest.drop (minus.length + whole.length + fraction.length))
    let digits := minus ++ whole ++ fraction ++ exponent
    let behind := c.skip digits.length
    if fraction.isEmpty && exponent.isEmpty then
      match readInteger digits with
      | .ok n => .ok (.integer n, behind)
      | .error _ => .error .tooManyDigits
    else .ok (.float ((readFloat? digits).getD .nan), behind)

def jsonWords : List (String × Value) :=
  [("null", .none), ("true", .bool true), ("false", .bool false), ("NaN", .float .nan),
   ("Infinity", .float (.infinite false)), ("-Infinity", .float (.infinite true))]

/-! ### Values -/

/-- The entries with one more; an entry under a key that is there takes its
    place. -/
def replaceEntry (entries : List (Text × Value)) (key : Text) (v : Value) :
    List (Text × Value) :=
  if entries.any (·.1 == key) then entries.map fun e => if e.1 == key then (key, v) else e
  else entries ++ [(key, v)]

mutual

def readJsonValue : Nat → JsonCursor → Except JsonFault (Value × JsonCursor)
  | 0, c => c.fault .expectedValue
  | fuel + 1, c =>
    match c.rest with
    | '"' :: _ => do
      let (t, c) ← readJsonText c.offset (c.rest.length + 1) (c.skip 1)
      return (.text t, c)
    | '[' :: _ =>
      let inside := (c.skip 1).skipBlanks
      if inside.rest.head? = some ']' then .ok (.list [], inside.skip 1)
      else do
        let (vs, c) ← readJsonItems fuel inside
        return (.list vs, c)
    | '\x7b' :: _ =>
      let inside := (c.skip 1).skipBlanks
      if inside.rest.head? = some '\x7d' then .ok (.dict [], inside.skip 1)
      else do
        let (entries, c) ← readJsonEntries fuel [] inside
        return (.dict (entries.map fun e => (.text e.1, e.2)), c)
    | _ =>
      match jsonWords.find? fun w => w.1.toList.isPrefixOf c.rest with
      | some (word, v) => .ok (v, c.skip word.length)
      | none => readJsonNumber c

def readJsonItems : Nat → JsonCursor → Except JsonFault (List Value × JsonCursor)
  | 0, c => c.fault .expectedValue
  | fuel + 1, c => do
    let (v, c) ← readJsonValue fuel c
    let c := c.skipBlanks
    match c.rest with
    | ']' :: _ => return ([v], c.skip 1)
    | ',' :: _ =>
      let (vs, c) ← readJsonItems fuel (c.skip 1).skipBlanks
      return (v :: vs, c)
    | _ => c.fault .expectedComma

/-- The entries of a dictionary from one on, behind those read so far, and the
    closing brace. -/
def readJsonEntries :
    Nat → List (Text × Value) → JsonCursor → Except JsonFault (List (Text × Value) × JsonCursor)
  | 0, _, c => c.fault .expectedValue
  | fuel + 1, entries, c => do
    if c.rest.head? != some '"' then c.fault .expectedPropertyName
    else
      let (key, c) ← readJsonText c.offset (c.rest.length + 1) (c.skip 1)
      let c := c.skipBlanks
      if c.rest.head? != some ':' then c.fault .expectedColon
      else
        let (v, c) ← readJsonValue fuel (c.skip 1).skipBlanks
        let entries := replaceEntry entries key v
        let c := c.skipBlanks
        match c.rest with
        | '\x7d' :: _ => return (entries, c.skip 1)
        | ',' :: _ => readJsonEntries fuel entries (c.skip 1).skipBlanks
        | _ => c.fault .expectedComma

end

/-- The value that a text writes. Every step of the reading takes a character, so
    twice the length is fuel enough. -/
def readJson (cs : List Char) : Except JsonFault Value :=
  if cs.head? = some (Char.ofNat 0xfeff) then .error (.malformed .byteOrderMark 0)
  else do
    let (v, c) ← readJsonValue (2 * cs.length + 2) (JsonCursor.mk 0 cs).skipBlanks
    let c := c.skipBlanks
    if c.rest.isEmpty then return v else c.fault .extraData

/-- What is said about a fault in a text: the cause and its place. -/
def JsonCause.report (cause : JsonCause) (text : String) (offset : Nat) : String :=
  let span : Span := ⟨text, offset, offset⟩
  cause.message ++ ": line " ++ toString span.line ++ " column " ++ toString span.column ++
    " (char " ++ toString offset ++ ")"

end Destructure
