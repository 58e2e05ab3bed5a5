/-
  Destructure/Failure.lean
  ========================
  **Failures** — what a caller of the library can be told instead of a result.
  Most are about a pattern or about a value that one does not fit, and carry the
  place in the pattern text; `Failure.message` words them, `Failure.text` adds the
  place. The failure of a pattern text is written as the diagnostic that it is.

  A failure to match a value shows the value, and is made by `Failure.unmatched`.
  There is none over a value that cannot be shown.

  Mirrors `CasematchError` of the program and its kinds `PatternSyntaxError`,
  `PatternValidationError`, `MatchError`, `NoMatchError` and
  `BindingConflictError`, and `CasematchImplementationError`.
-/
import Destructure.Diagnostic.Report
import Destructure.Value.Show

namespace Destructure

/-- The stage at which a pattern text is refused. -/
inductive Phase where
  | unspecified
  | syntactic
  | validation
deriving DecidableEq, Repr

/-- How a value can fail to be matched. -/
inductive Mismatch where
  /-- A pattern was asked for the bindings of a value that it does not match. -/
  | pattern (source : String)
  /-- A matcher for sequences was asked for the bindings of another value. -/
  | notSequence
  /-- No case of a dispatcher applies. -/
  | noCase
  /-- A partial function was called outside its domain. -/
  | outsideDomain
deriving DecidableEq, Repr

def Mismatch.isOfPattern : Mismatch → Bool
  | pattern _ | notSequence => true
  | noCase | outsideDomain => false

/-- What is said of a value that is shown as the given text. -/
def Mismatch.message (shown : String) : Mismatch → String
  | pattern source => "pattern `" ++ source ++ "` does not match " ++ shown
  | notSequence => "bindings requested for non-sequence " ++ shown
  | noCase => "no pattern matched " ++ shown
  | outsideDomain => "partial function not defined at: " ++ shown

/-- What can go wrong. -/
inductive Failure where
  | general (message : String) (span : Option Span)
  | pattern (phase : Phase) (diagnostic : Diagnostic)
  /-- A value is not matched, by a pattern or by a dispatcher or partial function. -/
  | mismatch (ofPattern : Bool) (message : String) (value : Value) (span : Option Span)
  /-- Two parts of a pattern captured under one name. -/
  | conflict (name : String) (span : Option Span)
  /-- The library has been misused or is wrong. -/
  | internal (message code : String)
  | fault (fault : Fault)

namespace Failure

def message : Failure → String
  | general m _ | mismatch _ m _ _ | internal m _ => m
  | pattern _ d => d.message
  | conflict name _ => "name `" ++ name ++ "` is bound more than once"
  | fault _ => "the operation is not defined for the value"

def span : Failure → Option Span
  | general _ s | mismatch _ _ _ s | conflict _ s => s
  | pattern _ d => d.span
  | internal .. | fault _ => none

/-- The failure to match a value. The value is shown first, and where that fails, this
    is the failure. -/
def unmatched (cause : Mismatch) (v : Value) (span : Option Span) : Failure :=
  match v.show with
  | .ok shown => mismatch cause.isOfPattern (cause.message shown) v span
  | .error f => fault f

def text (colour : Bool) (f : Failure) : String :=
  match f with
  | pattern _ d => d.write colour
  | internal message code => "[" ++ code ++ "] " ++ message
  | _ =>
    match f.span with
    | some s => f.message ++ "\n" ++ s.caret
    | none => f.message

end Failure

end Destructure
