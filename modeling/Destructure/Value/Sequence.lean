/-
  Destructure/Value/Sequence.lean
  ===============================
  **Values as sequences** — lists, tuples, double-ended queues, bare sequences,
  ranges, and arrays of one dimension or more are sequences; text, bytes and
  arrays without dimensions are not. A sequence has a length, elements, and
  suffixes. A suffix keeps the kind of its sequence where the kind can be cut; of
  a double-ended queue and of a bare sequence it is a list.

  Mirrors `as_sequence` and `suffix` of the program.
-/
import Destructure.Value.Basic
import Destructure.Text.Span

namespace Destructure

/-! ### Ranges -/

def rangeLength (start stop step : Int) : Nat :=
  if 0 < step then ((stop - start + step - 1) / step).toNat
  else if step < 0 then ((start - stop - step - 1) / -step).toNat
  else 0

/-! ### Arrays -/

def shapeSize (shape : List Nat) : Nat := shape.foldl (· * ·) 1

def pieces {α : Type} (size : Nat) : Nat → List α → List (List α)
  | 0, _ => []
  | n + 1, xs => xs.take size :: pieces size n (xs.drop size)

namespace Value

/-- Whether patterns treat the value as a sequence. -/
def isSequence : Value → Bool
  | sequence .. | range .. => true
  | array _ shape _ => !shape.isEmpty
  | _ => false

def length : Value → Nat
  | sequence _ items => items.length
  | range start stop step => rangeLength start stop step
  | array _ (n :: _) _ => n
  | _ => 0

/-- The greatest length that can be counted. Only a range can be longer. -/
def countLimit : Nat := 9223372036854775807

def length? (v : Value) : Except Fault (Option Nat) :=
  if !v.isSequence then .ok Option.none
  else if v.length ≤ countLimit then .ok (some v.length)
  else .error .overflow

def elementAt? : Value → Nat → Option Value
  | sequence _ items, i => items[i]?
  | range start stop step, i =>
    if i < rangeLength start stop step then some (integer (start + i * step)) else Option.none
  | array _ [n] elements, i => if i < n then elements[i]? else Option.none
  | array type (n :: shape) elements, i =>
    let size := shapeSize shape
    if i < n then some (array type shape ((elements.drop (i * size)).take size)) else Option.none
  | _, _ => Option.none

/-- The element of a sequence at an index, which below zero counts from the
    end. -/
def element (v : Value) (index : Int) : Except Fault Value :=
  let i := if index < 0 then index + v.length else index
  if i < 0 then .error .indexOutOfRange
  else match v.elementAt? i.toNat with
    | some x => .ok x
    | Option.none => .error .indexOutOfRange

/-- The number of items to skip when items are taken one after another: there is
    no counting from the end. -/
def skipCount (index : Int) : Except Fault Nat :=
  if 0 ≤ index ∧ index ≤ countLimit then .ok index.toNat else .error .badValue

/-- A list of the items from an index on, taken one after another. -/
def itemsFrom (items : List Value) (index : Int) : Except Fault Value := do
  return list (items.drop (← skipCount index))

/-- What a value has from an index on. -/
def suffix (v : Value) (index : Int) : Except Fault Value :=
  match v with
  | sequence .list items => .ok (sequence .list (items.drop (cutOffset items.length index)))
  | sequence .tuple items => .ok (sequence .tuple (items.drop (cutOffset items.length index)))
  | sequence .deque items | sequence (.bare _) items => itemsFrom items index
  | range start stop step =>
    let n := rangeLength start stop step
    .ok (range (start + cutOffset n index * step) (start + n * step) step)
  | array type (n :: shape) elements =>
    let i := cutOffset n index
    .ok (array type ((n - i) :: shape) (elements.drop (i * shapeSize shape)))
  | text t | elementText t => .ok (text (t.drop (cutOffset t.length index)))
  | bytes mutable bs => .ok (bytes mutable (bs.drop (cutOffset bs.length index)))
  | dict entries => itemsFrom (entries.map (·.1)) index
  | array _ [] _ | elementBool _ | number (.elementInteger ..) | number (.elementFloat ..)
  | duration .. => .error .indexOutOfRange
  | none | bool _ | number _ | complex .. | decimal _ => do
    let _ ← skipCount index
    throw .wrongType

end Value

end Destructure
