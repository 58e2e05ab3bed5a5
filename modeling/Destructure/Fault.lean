/-
  Destructure/Fault.lean
  ======================
  **Faults** — ways in which an operation on values can fail that are no matter
  of patterns. Each constructor is a cause; which of several causes is reported
  is settled by the order in which the operation looks at its operands.

  Mirrors the exceptions that candidates of the program raise by themselves.
-/

namespace Destructure

/-- Why an operation on values fails. -/
inductive Fault where
  | indexOutOfRange
  | wrongType
  | badValue
  | overflow
  | missingKey
  | divisionByZero
  /-- Elements of these types have no such operation. -/
  | unsupportedElements
  /-- The arithmetic of decimals gives no result. -/
  | undefinedResult
  /-- A decimal is greater than any result may be. -/
  | decimalOverflow
deriving DecidableEq, Repr

end Destructure
