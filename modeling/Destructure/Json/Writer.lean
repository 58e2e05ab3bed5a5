/-
  Destructure/Json/Writer.lean
  ============================
  **Writing JSON** — values on one line, the entries of dictionaries in the order
  of their keys. Texts are written with printable ASCII characters only: others
  are escaped, those beyond the first plane as a surrogate pair.

  Mirrors how `main` of the program writes the bindings.
-/
import Destructure.Text.Quoted
import Destructure.Value.Basic

namespace Destructure

def unitEscape (n : Nat) : List Char := '\\' :: 'u' :: hexDigits 4 n

def jsonPoint (c : Nat) : List Char :=
  if c = 0x22 then ['\\', '"']
  else if c = 0x5c then ['\\', '\\']
  else if c = 0x0a then ['\\', 'n']
  else if c = 0x0d then ['\\', 'r']
  else if c = 0x09 then ['\\', 't']
  else if c = 0x0c then ['\\', 'f']
  else if c = 0x08 then ['\\', 'b']
  else if 0x20 ≤ c ∧ c < 0x7f then [Char.ofNat c]
  else if c < 0x10000 then unitEscape c
  else unitEscape (0xd800 + (c - 0x10000) / 0x400) ++ unitEscape (0xdc00 + (c - 0x10000) % 0x400)

def Text.json (t : Text) : String :=
  String.ofList ('"' :: t.flatMap (fun c => jsonPoint c.val) ++ ['"'])

def Binary.json : Binary → String
  | nan => "NaN"
  | infinite negative => if negative then "-Infinity" else "Infinity"
  | x => FloatLayout.plain.text x

/-- Entries in the order of their keys, those with one key in their own. -/
def sortEntries (entries : List (Text × String)) : List (Text × String) :=
  entries.mergeSort fun a b => !Text.lt b.1 a.1

def joinEntries (entries : List (Text × String)) : String :=
  "\x7b" ++ ", ".intercalate ((sortEntries entries).map fun e => e.1.json ++ ": " ++ e.2) ++ "\x7d"

mutual

/-- A value as JSON. Values that JSON has no form for are written as `null`. -/
def Value.json : Value → String
  | .bool b => if b then "true" else "false"
  | .number (.integer n) => toString n
  | .number (.float x) => x.json
  | .text t => t.json
  | .sequence _ items => "[" ++ ", ".intercalate (jsonItems items) ++ "]"
  | .dict entries => joinEntries (jsonEntries entries)
  | _ => "null"

def jsonItems : List Value → List String
  | [] => []
  | v :: vs => v.json :: jsonItems vs

/-- Entries with their values as JSON; keys that are no text do not occur. -/
def jsonEntries : List (Value × Value) → List (Text × String)
  | [] => []
  | (k, v) :: es => (k.text?.getD [], v.json) :: jsonEntries es

end

def Bindings.json (bs : Bindings) : String :=
  joinEntries (bs.map fun e => (Text.ofString e.1, e.2.json))

end Destructure
