/-
  Destructure/Pattern/Token.lean
  ==============================
  **Tokens of a pattern text** — eight terminals: the two brackets, the comma,
  the star, names, strings, and two kinds of number. A text that could be read as
  a floating-point number is one; an integer is what remains. Terminals start
  with different characters but for that, so the token at a place does not hang
  on what is expected there, and a text can be cut into tokens before it is read.

  Between tokens stand blanks: space, tab, form feed, carriage return, newline.
  Cutting stops at the first character that starts no token.

  Mirrors the terminals of the program's grammar and the lexer made from them.
-/
import Destructure.Text.DecimalDigit
import Destructure.Pattern.Basic

namespace Destructure

/-- The kinds of token. -/
inductive Terminal where
  | openBracket
  | closeBracket
  | comma
  | star
  | float
  | integer
  | name
  | string
deriving DecidableEq, Repr

/-- A token: its kind, where it starts, and its characters. -/
structure Token where
  terminal : Terminal
  start : Nat
  text : List Char
deriving DecidableEq, Repr

def Token.extent (t : Token) : Extent := ⟨t.start, t.start + t.text.length⟩

/-! ### Characters -/

def isBlank (c : Char) : Bool :=
  c = ' ' || c = '\t' || c = '\x0c' || c = '\r' || c = '\n'

def isNameStart (c : Char) : Bool := c.isLower || c = '_'

def isNamePart (c : Char) : Bool := c.isAlphanum || c = '_'

/-! ### Lexemes

Each function takes its lexeme off the head of the characters and returns it with
what follows. -/

def takeName? : List Char → Option (List Char × List Char)
  | [] => none
  | c :: cs =>
    if isNameStart c then some (c :: cs.takeWhile isNamePart, cs.dropWhile isNamePart) else none

/-- One digit or more. -/
def takeDigits? (cs : List Char) : Option (List Char × List Char) :=
  let ds := cs.takeWhile isDecimalDigit
  if ds.isEmpty then none else some (ds, cs.dropWhile isDecimalDigit)

def takeMinus : List Char → List Char × List Char
  | '-' :: cs => (['-'], cs)
  | cs => ([], cs)

/-- An integer: digits behind an optional minus. -/
def takeInteger? (cs : List Char) : Option (List Char × List Char) :=
  let (minus, body) := takeMinus cs
  (takeDigits? body).map fun (ds, rest) => (minus ++ ds, rest)

def takeExponent? : List Char → Option (List Char × List Char)
  | [] => none
  | e :: cs =>
    if e = 'e' ∨ e = 'E' then
      let (sign, body) := match cs with
        | '+' :: cs => (['+'], cs)
        | '-' :: cs => (['-'], cs)
        | _ => ([], cs)
      (takeDigits? body).map fun (ds, rest) => (e :: sign ++ ds, rest)
    else none

/-- A floating-point number: an integer with a fraction, an exponent, or both. -/
def takeFloat? (cs : List Char) : Option (List Char × List Char) :=
  match takeInteger? cs with
  | none => none
  | some (whole, '.' :: rest) =>
    match takeDigits? rest with
    | none => none
    | some (ds, rest) =>
      let fraction := whole ++ '.' :: ds
      match takeExponent? rest with
      | none => some (fraction, rest)
      | some (ex, rest) => some (fraction ++ ex, rest)
  | some (whole, rest) => (takeExponent? rest).map fun (ex, rest) => (whole ++ ex, rest)

/-- The rest of a string behind its opening quote. A backslash takes the next
    character along, whatever it is but a newline. -/
def takeStringRest? (quote : Char) : List Char → Option (List Char × List Char)
  | [] => none
  | '\\' :: c :: cs =>
    if c = '\n' then none
    else (takeStringRest? quote cs).map fun (s, rest) => ('\\' :: c :: s, rest)
  | c :: cs =>
    if c = quote then some ([c], cs)
    else if c = '\\' then none
    else (takeStringRest? quote cs).map fun (s, rest) => (c :: s, rest)

def takeString? : List Char → Option (List Char × List Char)
  | [] => none
  | q :: cs =>
    if q = '"' ∨ q = '\'' then (takeStringRest? q cs).map fun (s, rest) => (q :: s, rest) else none

def punctuation? : Char → Option Terminal
  | '[' => some .openBracket
  | ']' => some .closeBracket
  | ',' => some .comma
  | '*' => some .star
  | _ => none

/-- The token at the head of the characters: its kind, its lexeme, and what
    follows. -/
def takeLexeme? (cs : List Char) : Option (Terminal × List Char × List Char) :=
  match cs with
  | [] => none
  | c :: rest =>
    match punctuation? c with
    | some t => some (t, [c], rest)
    | none =>
      match takeFloat? cs, takeInteger? cs, takeName? cs, takeString? cs with
      | some r, _, _, _ => some (.float, r)
      | none, some r, _, _ => some (.integer, r)
      | none, none, some r, _ => some (.name, r)
      | none, none, none, some r => some (.string, r)
      | none, none, none, none => none

/-! ### Cutting a text -/

/-- A text cut into tokens, up to the first character that starts none. -/
structure Tokens where
  tokens : List Token
  stray : Option (Nat × Char)
deriving DecidableEq, Repr

/-- Cuts the characters that start at `offset`; the fuel bounds the number of
    tokens. -/
def tokensFrom (fuel offset : Nat) (cs : List Char) : Tokens :=
  match fuel with
  | 0 => ⟨[], none⟩
  | fuel + 1 =>
    let start := offset + (cs.takeWhile isBlank).length
    match cs.dropWhile isBlank with
    | [] => ⟨[], none⟩
    | c :: cs =>
      match takeLexeme? (c :: cs) with
      | none => ⟨[], some (start, c)⟩
      | some (terminal, text, rest) =>
        let following := tokensFrom fuel (start + text.length) rest
        ⟨⟨terminal, start, text⟩ :: following.tokens, following.stray⟩

/-- The tokens of a text. No token is empty, so there are no more of them than
    characters. -/
def tokensOf (cs : List Char) : Tokens := tokensFrom (cs.length + 1) 0 cs

end Destructure
