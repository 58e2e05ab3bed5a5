/-
  Destructure/Proofs/Matcher/Reference.lean
  =========================================
  **What a pattern means** — the bindings of a value read off the outline of a
  pattern, without a matcher. An array is taken as what it looks like, a flat list of
  items with perhaps a splat behind them: a sequence fits it by its length alone, and
  then item `i` is matched with element `i` and the splat takes what is left.

  `Outline.Asks` says which parts of the pattern are held against which parts of the
  value on the way. Neither a length that cannot be counted nor a comparison without
  an answer has a place in the meaning; where one is asked for, it decides.
-/
import Destructure.Matcher.Basic
import Destructure.Proofs.Pattern.Outline
import Destructure.Proofs.Value.Sequence

namespace Destructure

/-! ### Length of an array -/

section Length

variable {α : Type}

/-- The number of items of an array; a splat is not counted. -/
def itemCount : List (Entry α) → Nat
  | [] => 0
  | .pattern _ :: es => itemCount es + 1
  | .splat _ :: es => itemCount es

def hasSplat : List (Entry α) → Bool
  | [] => false
  | .pattern _ :: es => hasSplat es
  | .splat _ :: _ => true

/-- Whether a sequence has, from an index on, as many elements as there are items, or
    with a splat at least as many. -/
def fits (es : List (Entry α)) (first length : Nat) : Bool :=
  if hasSplat es then first + itemCount es ≤ length else first + itemCount es == length

end Length

/-! ### Bindings -/

/-- Whether a value is what a literal says: an equal text, a number that equals the
    number, or a duration that the number counts. -/
def Literal.admits : Literal → Value → Bool
  | text s, v => v.text? == some (Text.ofString s)
  | integer n, .number m => (m.equals (.integer n)).toOption == some true
  | integer n, .duration _ count => count == some n
  | float x, .number m => (m.equals (.float x)).toOption == some true
  | _, _ => false

mutual

/-- The bindings of a value, if the pattern matches it. -/
def Outline.capture? : Outline Literal → Value → Option Bindings
  | .literal l, v => if l.admits v then some [] else none
  | .name s, v => some [(s, v)]
  | .array es, v =>
    if v.isSequence && fits es 0 v.length then captureEach es v 0 else none

/-- The bindings of the elements from an index on, in the order of the items, and
    behind them that of the splat. -/
def captureEach : List (Entry Literal) → Value → Nat → Option Bindings
  | [], _, _ => some []
  | .pattern o :: es, v, i => do
    let bs ← o.capture? (← v.elementAt? i)
    return bs ++ (← captureEach es v (i + 1))
  | .splat none :: es, v, i => captureEach es v i
  | .splat (some s) :: es, v, i => do
    let w ← (v.suffix i).toOption
    return (s, w) :: (← captureEach es v i)

end

/-! ### What is asked for -/

mutual

/-- Matching a value with a pattern, the second value is held against the second
    pattern. -/
inductive Outline.Asks : Outline Literal → Value → Outline Literal → Value → Prop
  | self (o : Outline Literal) (v : Value) : Outline.Asks o v o v
  | array {es : List (Entry Literal)} {v : Value} {o : Outline Literal} {x : Value} :
      v.isSequence = true → v.length ≤ Value.countLimit → EachAsks es v 0 o x →
      Outline.Asks (.array es) v o x

/-- The elements are asked for one after another, as long as those before match. The
    last of several items is asked for only where no element follows. -/
inductive EachAsks : List (Entry Literal) → Value → Nat → Outline Literal → Value → Prop
  | here {q : Outline Literal} {es : List (Entry Literal)} {v y : Value} {i : Nat}
      {o : Outline Literal} {x : Value} :
      v.elementAt? i = some y → (i ≠ 0 → es = [] → v.length = i + 1) →
      Outline.Asks q y o x → EachAsks (.pattern q :: es) v i o x
  | later {q : Outline Literal} {es : List (Entry Literal)} {v y : Value} {i : Nat}
      {bs : Bindings} {o : Outline Literal} {x : Value} :
      v.elementAt? i = some y → q.capture? y = some bs → EachAsks es v (i + 1) o x →
      EachAsks (.pattern q :: es) v i o x

end

/-- Every literal that is asked for can be compared. -/
def Outline.Comparable (o : Outline Literal) (v : Value) : Prop :=
  ∀ l x, o.Asks v (.literal l) x → ∃ b, l.accepts x = .ok b

/-- An array is asked for of a sequence with more elements than can be counted. -/
def Outline.Uncountable (o : Outline Literal) (v : Value) : Prop :=
  ∃ es x, o.Asks v (.array es) x ∧ x.isSequence = true ∧ Value.countLimit < x.length

/-- The same for the elements from an index on. -/
def EachComparable (es : List (Entry Literal)) (v : Value) (i : Nat) : Prop :=
  ∀ l x, EachAsks es v i (.literal l) x → ∃ b, l.accepts x = .ok b

def EachUncountable (es : List (Entry Literal)) (v : Value) (i : Nat) : Prop :=
  ∃ fs x, EachAsks es v i (.array fs) x ∧ x.isSequence = true ∧ Value.countLimit < x.length

/-! ### Small facts -/

theorem Literal.admits_of_accepts {l : Literal} {v : Value} {b : Bool}
    (h : l.accepts v = .ok b) : l.admits v = b := by
  cases l with
  | text s =>
    cases h
    rfl
  | integer n =>
    cases v with
    | number m =>
      have hequals : m.equals (.integer n) = .ok b := h
      rw [admits, hequals]
      cases b <;> rfl
    | _ =>
      cases h
      rfl
  | float x =>
    cases v with
    | number m =>
      have hequals : m.equals (.float x) = .ok b := h
      rw [admits, hequals]
      cases b <;> rfl
    | _ =>
      cases h
      rfl

/-- The bindings of the elements from an index on, where their number fits. -/
def captureRest (es : List (Entry Literal)) (v : Value) (i : Nat) : Option Bindings :=
  if fits es i v.length then captureEach es v i else none

theorem Outline.capture?_array {es : List (Entry Literal)} {v : Value}
    (h : v.isSequence = true) : (Outline.array es).capture? v = captureRest es v 0 := by
  rw [Outline.capture?, h, Bool.true_and]
  rfl

theorem fits_pattern (o : Outline Literal) (es : List (Entry Literal)) (i n : Nat) :
    fits (.pattern o :: es) i n = fits es (i + 1) n := by
  have hcount : i + (itemCount es + 1) = i + 1 + itemCount es := by omega
  rw [fits, fits, hasSplat, itemCount, hcount]

/-- The first item takes its element, and what is left is as before. -/
theorem captureRest_pattern (o : Outline Literal) (es : List (Entry Literal)) (v : Value)
    (i : Nat) :
    captureRest (.pattern o :: es) v i = (v.elementAt? i).bind fun x =>
      (o.capture? x).bind fun bs => (captureRest es v (i + 1)).map (bs ++ ·) := by
  cases hx : v.elementAt? i with
  | none =>
    rw [captureRest, captureEach, hx]
    cases fits (.pattern o :: es) i v.length <;> rfl
  | some x =>
    simp only [captureRest, fits_pattern, captureEach, hx, Option.bind_eq_bind, Option.bind_some]
    cases fits es (i + 1) v.length <;> cases o.capture? x <;>
      cases captureEach es v (i + 1) <;> rfl

end Destructure
