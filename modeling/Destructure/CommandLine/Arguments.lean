/-
  Destructure/CommandLine/Arguments.lean
  ======================================
  **Arguments of the program** — two positional arguments, the pattern and the
  value, and flags that may stand before, between and behind them. A flag has a
  short and a long form; short ones may be joined behind one dash, long ones
  shortened as long as one flag only is meant. A negative number and anything
  with a space in it is positional although it starts with a dash, and so is
  everything behind `--`.

  Mirrors the argument parser of the program's `main`.
-/
import Destructure.Text.DecimalDigit
import Destructure.Text.Quoted

namespace Destructure

/-- The flags of the program. -/
inductive Flag where
  | help
  | quiet
  | verbose
deriving DecidableEq, Repr

namespace Flag

def all : List Flag := [help, quiet, verbose]

def short : Flag → String
  | help => "-h"
  | quiet => "-q"
  | verbose => "-v"

def long : Flag → String
  | help => "--help"
  | quiet => "--quiet"
  | verbose => "--verbose"

def title (f : Flag) : String := f.short ++ "/" ++ f.long

def ofForm? (s : String) : Option Flag := all.find? fun f => f.short == s || f.long == s

end Flag

/-- What an argument that looks like a flag is read as. An attached text stands
    behind the flag, with an equals sign between them or without. -/
inductive FlagReading where
  | plain (flag : Flag)
  | attached (flag : Flag) (isShort : Bool) (text : List Char)
  | unknown
deriving DecidableEq, Repr

/-- What an argument is before the positional ones are counted. -/
inductive Mark where
  | argument
  | separator
  | flag (reading : FlagReading)
deriving DecidableEq, Repr

/-- Why arguments are refused. -/
inductive UsageFault where
  | ambiguous (argument : String) (candidates : List Flag)
  | ignoredText (flag : Flag) (text : String)
  | missing (names : List String)
  | unrecognised (arguments : List String)
deriving DecidableEq, Repr

def UsageFault.message : UsageFault → String
  | ambiguous argument candidates =>
    "ambiguous option: " ++ argument ++ " could match " ++
      ", ".intercalate (candidates.map (·.long))
  | ignoredText flag text =>
    "argument " ++ flag.title ++ ": ignored explicit argument " ++ quoted text
  | missing names => "the following arguments are required: " ++ ", ".intercalate names
  | unrecognised arguments => "unrecognized arguments: " ++ " ".intercalate arguments

/-! ### One argument -/

/-- Whether the characters are digits, a newline at the end aside, with a point
    among them if `point` allows for one. -/
def isNegativeNumber : List Char → Bool
  | '-' :: cs =>
    let cs := if cs.getLast? = some '\n' then cs.dropLast else cs
    let rest := cs.dropWhile isDecimalDigit
    match rest with
    | [] => !cs.isEmpty
    | '.' :: fraction => !fraction.isEmpty && fraction.all isDecimalDigit
    | _ => false
  | _ => false

def splitEquals? (cs : List Char) : Option (List Char × List Char) :=
  match cs.dropWhile (· != '=') with
  | _ :: behind => some (cs.takeWhile (· != '='), behind)
  | [] => none

def abbreviated (cs : List Char) : List Flag :=
  Flag.all.filter fun f => cs.isPrefixOf f.long.toList

def readUnlisted (s : String) (cs : List Char) : Except UsageFault Mark :=
  match cs with
  | '-' :: '-' :: _ =>
    let (stem, text) := match splitEquals? cs with
      | some (stem, text) => (stem, some text)
      | none => (cs, none)
    match abbreviated stem, text with
    | [f], some text => .ok (.flag (.attached f false text))
    | [f], none => .ok (.flag (.plain f))
    | [], _ => .ok (if cs.contains ' ' then .argument else .flag .unknown)
    | fs, _ => .error (.ambiguous s fs)
  | _ =>
    match Flag.ofForm? (String.ofList (cs.take 2)) with
    | some f => .ok (.flag (.attached f true (cs.drop 2)))
    | none =>
      .ok (if isNegativeNumber cs || cs.contains ' ' then .argument else .flag .unknown)

def Mark.ofArgument (s : String) : Except UsageFault Mark :=
  let cs := s.toList
  if cs.head? ≠ some '-' then .ok .argument
  else if s = "--" then .ok .separator
  else match Flag.ofForm? s with
    | some f => .ok (.flag (.plain f))
    | none =>
      if cs.length = 1 then .ok .argument
      else match splitEquals? cs with
        | some (stem, text) =>
          match Flag.ofForm? (String.ofList stem) with
          | some f => .ok (.flag (.attached f (stem.length = 2) text))
          | none => readUnlisted s cs
        | none => readUnlisted s cs

def markArguments : List String → Except UsageFault (List (Mark × String))
  | [] => .ok []
  | s :: ss => do
    let m ← Mark.ofArgument s
    if m = .separator then return (m, s) :: ss.map fun s => (.argument, s)
    return (m, s) :: (← markArguments ss)

/-! ### Flags -/

/-- The flags that a flag and the text attached to it stand for, in their order.
    Behind a short flag every letter of the text is a short flag itself; no other
    text has a meaning. -/
def joinedFlags (flag : Flag) (isShort : Bool) : List Char → Except UsageFault (List Flag)
  | [] => .error (.ignoredText flag "")
  | c :: cs =>
    match if isShort then Flag.ofForm? (String.ofList ['-', c]) else none with
    | none => .error (.ignoredText flag (String.ofList (c :: cs)))
    | some next =>
      if cs.isEmpty then .ok [flag, next]
      else do return flag :: (← joinedFlags next true cs)

/-- The flags that a reading stands for, and what is left unrecognised. -/
def FlagReading.flags (s : String) : FlagReading → Except UsageFault (List Flag × List String)
  | plain f => .ok ([f], [])
  | attached f isShort text => (joinedFlags f isShort text).map (·, [])
  | unknown => .ok ([], [s])

/-! ### All arguments -/

/-- What has been made of the arguments so far. A positional argument of which
    the separator leaves nothing is present without a text. -/
structure Arguments where
  positionals : List (Option String)
  flags : List Flag
  unrecognised : List String
deriving DecidableEq, Repr

def positionalNames : List String := ["pattern", "value"]

/-- One positional argument at the head, with the separators around it. -/
def takePositional? (ms : List (Mark × String)) : Option (List String × List (Mark × String)) :=
  let isSeparator (m : Mark × String) : Bool := m.1 = .separator
  let before := ms.takeWhile isSeparator
  match ms.dropWhile isSeparator with
  | (.argument, s) :: rest =>
    let behind := rest.takeWhile isSeparator
    some (before.map (·.2) ++ s :: behind.map (·.2), rest.dropWhile isSeparator)
  | _ => none

/-- The text of a positional argument: what is left without the first
    separator. -/
def positionalText (group : List String) : Option String := (group.erase "--").head?

namespace Arguments

def empty : Arguments := ⟨[], [], []⟩

def takePositionals : Nat → Arguments → List (Mark × String) → Arguments × List (Mark × String)
  | 0, a, ms => (a, ms)
  | n + 1, a, ms =>
    match takePositional? ms with
    | none => (a, ms)
    | some (group, ms) =>
      takePositionals n { a with positionals := a.positionals ++ [positionalText group] } ms

/-- How many positional arguments are still to come. -/
def wanted (a : Arguments) : Nat := positionalNames.length - a.positionals.length

/-- Goes through the arguments up to the last flag, and then takes the positional
    ones behind it. What is neither is left unrecognised. -/
def consume : Nat → Arguments → List (Mark × String) → Except UsageFault Arguments
  | 0, a, _ => .ok a
  | fuel + 1, a, ms =>
    let isFlag (m : Mark × String) : Bool := match m.1 with
      | .flag _ => true
      | _ => false
    let (b, rest) := takePositionals a.wanted a ms
    if !ms.any isFlag then
      .ok { b with unrecognised := b.unrecognised ++ rest.map (·.2) }
    else match ms with
      | (.flag reading, s) :: ms => do
        let (flags, left) ← reading.flags s
        let a := { a with flags := a.flags ++ flags, unrecognised := a.unrecognised ++ left }
        if flags.contains .help then return a
        consume fuel a ms
      | _ =>
        if rest.length < ms.length then consume fuel b rest
        else
          let extra := ms.takeWhile fun m => !isFlag m
          consume fuel { a with unrecognised := a.unrecognised ++ extra.map (·.2) }
            (ms.dropWhile fun m => !isFlag m)

end Arguments

/-- What is made of the arguments of the program. A call for help is answered
    whatever else is missing. -/
def readArguments (args : List String) : Except UsageFault Arguments := do
  let ms ← markArguments args
  let a ← Arguments.empty.consume (2 * ms.length + 2) ms
  if a.flags.contains .help then return a
  if 0 < a.wanted then throw (.missing (positionalNames.drop a.positionals.length))
  if !a.unrecognised.isEmpty then throw (.unrecognised a.unrecognised)
  return a

end Destructure
