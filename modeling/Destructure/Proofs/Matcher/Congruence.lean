/-
  Destructure/Proofs/Matcher/Congruence.lean
  ==========================================
  **Alike matchers and one value** — matchers that are alike take a value apart in the
  same way and ask it for literals that are alike. Literals that are alike accept the same
  values, with two exceptions. Beside an element of an integer array a number that is
  written as floating is compared after the element has been rounded, a number that is
  written as an integer is compared exactly (`Literal.Blurs`); and a duration is equal to
  the integer that counts it, and to no floating number (`Literal.Counts`). So alike
  matchers agree about a value wherever no such element and no duration is compared
  (`Matcher.Alike.definedAt`).
-/
import Mathlib
import Destructure.Proofs.Matcher.Capture
import Destructure.Proofs.Matcher.Likeness
import Destructure.Proofs.Matcher.Overflow
import Destructure.Proofs.Number.Exactness

namespace Destructure

/-! ### Numbers that stand for the same -/

/-- What a number becomes in another format depends on what it stands for. -/
theorem BinaryFormat.quantity_convert (f : BinaryFormat) (x : Binary) :
    (f.convert x).quantity = (f.ofQuantity x.quantity).quantity := by
  unfold convert
  split
  · simp [Binary.quantity, Binary.magnitude_eq, ofQuantity, ofRat, nearest]
  · rfl

/-- An integer that a number of the format stands for has its place in the format. -/
theorem BinaryFormat.exists_ofInt? {f : BinaryFormat} {y : Binary} {k : Int} (hy : f.Holds y)
    (hk : y.quantity = .finite k) : ∃ x, f.ofInt? k = some x ∧ x.quantity = y.quantity := by
  have hquantity := quantity_ofRat hy hk
  rw [ofInt?]
  cases hx : f.ofRat k with
  | infinite b =>
    rw [hx] at hquantity
    cases hquantity
  | nan | finite b s e => exact ⟨_, rfl, by rw [← hx, hquantity, hk]⟩

/-- Integers of up to fifty-three bits are doubles. -/
theorem BinaryFormat.exists_double {n : Int} (hn : n.natAbs ≤ 2 ^ 53) :
    ∃ x, BinaryFormat.double.Holds x ∧ x.quantity = .finite n := by
  have hquantity : ∀ (s : Nat) (e : Int), (s : ℚ) * 2 ^ e = n.natAbs →
      (Binary.finite (n < 0) s e).quantity = .finite n := by
    intro s e hs
    have hnatAbs : (n.natAbs : ℚ) = |(n : ℚ)| := by rw [Nat.cast_natAbs, Int.cast_abs]
    rw [Binary.quantity, Binary.magnitude_eq, hs, hnatAbs, Quantity.finite.injEq]
    by_cases hneg : n < 0
    · have hcast : (n : ℚ) < 0 := by exact_mod_cast hneg
      simp [hneg, abs_of_neg hcast]
    · have hcast : (0 : ℚ) ≤ n := by exact_mod_cast not_lt.mp hneg
      simp [hneg, abs_of_nonneg hcast]
  rcases Nat.lt_or_eq_of_le hn with hlt | heq
  · refine ⟨.finite (n < 0) n.natAbs 0, ⟨hlt, by decide, by decide⟩, hquantity _ _ (by simp)⟩
  · -- the power of two has one bit more, and gives it up
    refine ⟨.finite (n < 0) (2 ^ 52) 1, ⟨by decide, by decide, by decide⟩, hquantity _ _ ?_⟩
    rw [heq]
    norm_num

/-- Floating-point numbers that stand for the same are equal to the same numbers. -/
theorem Number.equals_float_congr {x y : Binary} (h : x.quantity = y.quantity) (m : Number) :
    m.equals (.float x) = m.equals (.float y) := by
  have halign : m.align (.float x) = m.align (.float y) := by
    cases m with
    | elementFloat type z =>
      simp only [Number.align, Number.besideFloat, BinaryFormat.quantity_convert, h]
    | _ => simp only [Number.align, Number.quantity, h]
  rw [Number.equals, Number.equals, Number.related, Number.related, halign]

/-- A double that stands for an integer is in every type what the integer is. -/
theorem FloatType.ofPlainInteger_eq {y : Binary} {k : Int} (hy : BinaryFormat.double.Holds y)
    (hk : y.quantity = .finite k) (hwritable : Value.isWritableInteger k = true)
    (type : FloatType) :
    (type.ofPlainInteger k).map (·.quantity) = .ok (type.format.convert y).quantity := by
  cases type with
  | longdouble =>
    simp only [ofPlainInteger, hwritable, if_true, Except.map, BinaryFormat.quantity_convert, hk]
    rfl
  | float16 | float32 | float64 =>
    obtain ⟨x, hx, hquantity⟩ := BinaryFormat.exists_ofInt? hy hk
    simp only [ofPlainInteger, hx, Except.map, BinaryFormat.quantity_convert, hquantity]

/-- A double that stands for an integer equals what the integer equals, elements of
    integer arrays apart. -/
theorem Number.equals_integer_float {y : Binary} {k : Int} (hy : BinaryFormat.double.Holds y)
    (hk : y.quantity = .finite k) (hwritable : Value.isWritableInteger k = true) {m : Number}
    (hm : ∀ type n, m ≠ .elementInteger type n) :
    m.equals (.integer k) = m.equals (.float y) := by
  have halign : m.align (.integer k) = m.align (.float y) := by
    cases m with
    | elementInteger type n => exact absurd rfl (hm type n)
    | elementFloat type z =>
      simp only [Number.align, Number.besideFloat, FloatType.ofPlainInteger_eq hy hk hwritable]
    | _ => simp only [Number.align, Number.quantity, hk]
  rw [Number.equals, Number.equals, Number.related, Number.related, halign]

theorem Number.equals_elementInteger_integer (type : IntegerType) (n k : Int) :
    (Number.elementInteger type n).equals (.integer k) = .ok (n == k) := by
  simp [Number.equals, Number.related, Number.align, Number.quantity, Except.map,
    Relation.ofQuantities, Quantity.equal]

theorem Number.equals_elementInteger_float (type : IntegerType) (n : Int) (y : Binary) :
    (Number.elementInteger type n).equals (.float y) =
      .ok ((BinaryFormat.double.ofRat n).quantity.equal y.quantity) := rfl

/-! ### Literals -/

/-- Whether the value is an element of an integer array that is not the integer but is
    rounded to it, and the other literal is written as floating. -/
def Literal.Blurs : Literal → Literal → Value → Prop
  | integer k, float _, .number (.elementInteger _ n) =>
    n ≠ k ∧ (BinaryFormat.double.ofRat n).quantity = .finite k
  | _, _, _ => False

/-- Whether the value is a duration that the integer counts, and the other literal is
    written as floating. -/
def Literal.Counts : Literal → Literal → Value → Prop
  | integer k, float _, .duration _ count => count = some k
  | _, _, _ => False

/-- Whether the literals differ over the value if they are alike. -/
def Literal.Differs (a b : Literal) (v : Value) : Prop :=
  a.Blurs b v ∨ b.Blurs a v ∨ a.Counts b v ∨ b.Counts a v

namespace Literal

variable {a b : Literal} {v : Value}

theorem accepts_integer_float {y : Binary} {k : Int} (hy : BinaryFormat.double.Holds y)
    (hk : y.quantity = .finite k) (hwritable : Value.isWritableInteger k = true)
    (hblurs : ¬ (integer k).Blurs (float y) v) (hcounts : ¬ (integer k).Counts (float y) v) :
    (integer k).accepts v = (float y).accepts v := by
  cases v with
  | number m =>
    cases m with
    | elementInteger type n =>
      rw [accepts, accepts, Number.equals_elementInteger_integer,
        Number.equals_elementInteger_float, hk, Except.ok.injEq, Bool.eq_iff_iff,
        Quantity.equal_eq_true_iff, beq_iff_eq]
      constructor
      · rintro rfl
        exact ⟨BinaryFormat.quantity_ofRat hy hk, by rw [BinaryFormat.quantity_ofRat hy hk]; simp⟩
      · rintro ⟨hrounded, -⟩
        by_contra hne
        exact hblurs ⟨hne, hrounded⟩
    | _ => exact Number.equals_integer_float hy hk hwritable (by simp)
  | duration unit count =>
    have hcount : (count == some k) = false := beq_eq_false_iff_ne.mpr hcounts
    exact congrArg Except.ok hcount
  | _ => rfl

/-- Literals that are alike accept the same values, unless an element is rounded or a
    duration is counted. -/
theorem Alike.accepts (h : a.Alike b) (ha : a.Held) (hb : b.Held) (hsame : ¬ a.Differs b v) :
    a.accepts v = b.accepts v := by
  simp only [Differs, not_or] at hsame
  obtain ⟨hab, hba, hcountsab, hcountsba⟩ := hsame
  cases h with
  | text s => rfl
  | number haq hbq hnan =>
    cases a with
    | text s => cases haq
    | integer k =>
      cases b with
      | text t => cases hbq
      | integer k' =>
        cases haq
        cases hbq
        rfl
      | float y =>
        cases haq
        exact accepts_integer_float hb (Option.some.inj hbq) ha hab hcountsab
    | float x =>
      cases b with
      | text t => cases hbq
      | integer k' =>
        cases hbq
        exact (accepts_integer_float ha (Option.some.inj haq) hb hba hcountsba).symm
      | float y =>
        cases haq
        have hxy : x.quantity = y.quantity := (Option.some.inj hbq).symm
        cases v with
        | number m => exact m.equals_float_congr hxy
        | _ => rfl

theorem Blurs.inversion (h : a.Blurs b v) :
    ∃ k y type n, a = .integer k ∧ b = .float y ∧ v = .number (.elementInteger type n) ∧
      n ≠ k ∧ (BinaryFormat.double.ofRat n).quantity = .finite k := by
  cases a with
  | integer k =>
    cases b with
    | float y =>
      cases v with
      | number m =>
        cases m with
        | elementInteger type n => exact ⟨k, y, type, n, rfl, rfl, rfl, h.1, h.2⟩
        | _ => cases h
      | _ => cases h
    | _ => cases h
  | _ => cases h

/-- Over an element that is rounded they do not: the integer refuses it, and the
    floating-point number accepts it. -/
theorem Blurs.accepts (h : a.Blurs b v) (hab : a.Alike b) :
    a.accepts v = .ok false ∧ b.accepts v = .ok true := by
  obtain ⟨k, y, type, n, rfl, rfl, rfl, hne, hrounded⟩ := h.inversion
  have hy : Quantity.finite k = y.quantity := ((alike_number_iff rfl rfl).mp hab).1
  constructor
  · rw [Literal.accepts, Number.equals_elementInteger_integer, beq_eq_false_iff_ne.mpr hne]
  · rw [Literal.accepts, Number.equals_elementInteger_float, hrounded, ← hy,
      Quantity.equal_eq_true_iff.mpr ⟨rfl, by simp⟩]

theorem Counts.inversion (h : a.Counts b v) :
    ∃ k y unit, a = .integer k ∧ b = .float y ∧ v = .duration unit (some k) := by
  cases a with
  | integer k =>
    cases b with
    | float y =>
      cases v with
      | duration unit count =>
        cases h
        exact ⟨k, y, unit, rfl, rfl, rfl⟩
      | _ => cases h
    | _ => cases h
  | _ => cases h

theorem Counts.isDuration (h : a.Counts b v) : ∃ unit n, v = .duration unit (some n) := by
  obtain ⟨k, y, unit, -, -, rfl⟩ := h.inversion
  exact ⟨unit, k, rfl⟩

/-- Over a duration that is counted they do not either: here it is the integer that accepts
    it. -/
theorem Counts.accepts (h : a.Counts b v) : a.accepts v = .ok true ∧ b.accepts v = .ok false := by
  obtain ⟨k, y, unit, rfl, rfl, rfl⟩ := h.inversion
  refine ⟨?_, rfl⟩
  rw [Literal.accepts, beq_self_eq_true]

/-- Only elements of more than fifty-three bits are rounded. -/
theorem Blurs.large (h : a.Blurs b v) :
    ∃ type n, v = .number (.elementInteger type n) ∧ 2 ^ 53 < n.natAbs := by
  obtain ⟨k, y, type, n, rfl, rfl, rfl, hne, hrounded⟩ := h.inversion
  refine ⟨type, n, rfl, ?_⟩
  by_contra hsmall
  obtain ⟨x, hx, hquantity⟩ := BinaryFormat.exists_double (not_lt.mp hsmall)
  rw [BinaryFormat.quantity_ofRat hx hquantity, Quantity.finite.injEq] at hrounded
  exact hne (by exact_mod_cast hrounded)

end Literal

/-! ### Taking a value apart -/

/-- Asked about the value, both matchers come to ask about the last value of all for the
    literals `a` and `b`, which have the same place in them. -/
inductive Matcher.Compares : Matcher → Matcher → Value → Literal → Literal → Value → Prop
  | literal {a b : Literal} {o o' : Option Span} {v : Value} :
      Compares (.literal a o) (.literal b o') v a b v
  | head {h h' t t' : Matcher} {i : Int} {o o' : Option Span} {v x y : Value} {n : Nat}
      {a b : Literal} :
      v.length? = .ok (some n) → i < n → v.element i = .ok x → Compares h h' x a b y →
      Compares (.item h t i o) (.item h' t' i o') v a b y
  | tail {h h' t t' : Matcher} {i : Int} {o o' : Option Span} {v x y : Value} {n : Nat}
      {a b : Literal} :
      v.length? = .ok (some n) → i < n → v.element i = .ok x → h.definedAt x = .ok true →
      h'.definedAt x = .ok true → Compares t t' v a b y →
      Compares (.item h t i o) (.item h' t' i o') v a b y
  | remainder {h h' t t' : Matcher} {i : Int} {o o' : Option Span} {v x y : Value} {n : Nat}
      {a b : Literal} :
      v.length? = .ok (some n) → ¬ (n : Int) < i → v.suffix i = .ok x → Compares h h' x a b y →
      Compares (.remainder h t i o) (.remainder h' t' i o') v a b y
  | last {e e' : Matcher} {i : Int} {o o' : Option Span} {v x y : Value} {n : Nat}
      {a b : Literal} :
      v.length? = .ok (some n) → i + 1 = n → v.element i = .ok x → Compares e e' x a b y →
      Compares (.last e i o) (.last e' i o') v a b y

namespace Matcher

variable {m n : Matcher} {v x : Value} {a b : Literal}

theorem Compares.symm (h : m.Compares n v a b x) : n.Compares m v b a x := by
  induction h with
  | literal => exact .literal
  | head hlength hi hx _ ih => exact .head hlength hi hx ih
  | tail hlength hi hx hm hn _ ih => exact .tail hlength hi hx hn hm ih
  | remainder hlength hi hx _ ih => exact .remainder hlength hi hx ih
  | last hlength hi hx _ ih => exact .last hlength hi hx ih

/-- The literals that alike matchers ask for in the same place are alike. -/
theorem Compares.alike (h : m.Compares n v a b x) (hmn : m.Alike n) : a.Alike b := by
  induction h with
  | literal => exact hmn
  | head _ _ _ _ ih => exact ih hmn.1
  | tail _ _ _ _ _ _ ih => exact ih hmn.2.1
  | remainder _ _ _ _ ih => exact ih hmn.1
  | last _ _ _ _ ih => exact ih hmn.1

/-- A literal that a matcher comes to ask for is one of its literals. -/
theorem Compares.literal_left (h : m.Compares n v a b x) {P : Literal → Prop}
    (hm : m.AllLiterals P) : P a := by
  induction h with
  | literal => exact hm
  | head _ _ _ _ ih => exact ih hm.1
  | tail _ _ _ _ _ _ ih => exact ih hm.2
  | remainder _ _ _ _ ih => exact ih hm.1
  | last _ _ _ _ ih => exact ih hm

theorem Compares.not_isAnything (h : m.Compares n v a b x) : m.isAnything = false := by
  cases h <;> rfl

/-- A matcher refuses a value if a literal that it comes to ask for refuses what it is
    asked about. -/
theorem Compares.refuses (h : m.Compares n v a b x) (ha : a.accepts x = .ok false) :
    m.definedAt v = .ok false := by
  induction h with
  | literal => exact ha
  | head hlength hi hx _ ih =>
    simp only [definedAt, hlength, ok_bind, if_pos hi, hx, ih ha]
    rfl
  | tail hlength hi hx hhead _ _ ih =>
    simp only [definedAt, hlength, ok_bind, if_pos hi, hx, hhead, if_true, ih ha]
  | remainder hlength hi hx hhead ih =>
    simp only [definedAt, hlength, ok_bind, if_neg hi, hhead.not_isAnything, hx, ih ha]
    rfl
  | last hlength hi hx _ ih =>
    simp only [definedAt, hlength, ok_bind, hi, beq_self_eq_true, if_true, hx, ih ha]

/-- So a matcher refuses a value over an element that is rounded to its integer. -/
theorem Compares.blurs (h : m.Compares n v a b x) (hab : a.Alike b) (hblurs : a.Blurs b x) :
    a.accepts x = .ok false ∧ b.accepts x = .ok true ∧ m.definedAt v = .ok false := by
  obtain ⟨hrefused, haccepted⟩ := hblurs.accepts hab
  exact ⟨hrefused, haccepted, h.refuses hrefused⟩

/-- And over a duration that is counted by the integer of the other matcher. -/
theorem Compares.counts (h : m.Compares n v a b x) (hcounts : b.Counts a x) :
    b.accepts x = .ok true ∧ a.accepts x = .ok false ∧ m.definedAt v = .ok false := by
  obtain ⟨haccepted, hrefused⟩ := hcounts.accepts
  exact ⟨haccepted, hrefused, h.refuses hrefused⟩

theorem Alike.isAnything_eq (h : m.Alike n) : m.isAnything = n.isAnything := by
  cases m <;> cases n <;> first | rfl | cases h

/-- Alike matchers agree about a value if, wherever they come to compare, alike literals
    agree. -/
theorem Alike.definedAt (h : m.Alike n)
    (hagree : ∀ a b x, m.Compares n v a b x → a.accepts x = b.accepts x) :
    m.definedAt v = n.definedAt v := by
  induction m generalizing n v with
  | capture s o =>
    cases n with
    | capture s' o' => rfl
    | _ => cases h
  | literal l o =>
    cases n with
    | literal l' o' => exact hagree l l' v .literal
    | _ => cases h
  | equalTo w o => cases h
  | nothing i o =>
    cases n with
    | nothing j o' =>
      cases h
      rfl
    | _ => cases h
  | item head tail i o ihhead ihtail =>
    cases n with
    | item head' tail' j o' =>
      obtain ⟨hhead, htail, rfl⟩ := h
      refine bind_congr_of_ok fun length hlength => ?_
      cases length with
      | none => rfl
      | some k =>
        dsimp only
        split_ifs with hi
        · refine bind_congr_of_ok fun x hx => ?_
          have hsame : head.definedAt x = head'.definedAt x :=
            ihhead hhead fun a b y hy => hagree a b y (.head hlength hi hx hy)
          rw [← hsame]
          refine bind_congr_of_ok fun taken htaken => ?_
          cases taken with
          | false => rfl
          | true =>
            exact ihtail htail fun a b y hy =>
              hagree a b y (.tail hlength hi hx htaken (hsame ▸ htaken) hy)
        · rfl
    | _ => cases h
  | remainder head tail i o ihhead ihtail =>
    cases n with
    | remainder head' tail' j o' =>
      obtain ⟨hhead, -, rfl⟩ := h
      refine bind_congr_of_ok fun length hlength => ?_
      cases length with
      | none => rfl
      | some k =>
        dsimp only
        rw [hhead.isAnything_eq]
        split_ifs with hi
        · rfl
        · rfl
        · refine bind_congr_of_ok fun x hx => ?_
          exact ihhead hhead fun a b y hy => hagree a b y (.remainder hlength hi hx hy)
    | _ => cases h
  | last e i o ih =>
    cases n with
    | last e' j o' =>
      obtain ⟨he, rfl⟩ := h
      refine bind_congr_of_ok fun length hlength => ?_
      cases length with
      | none => rfl
      | some k =>
        dsimp only
        split_ifs with hi
        · refine bind_congr_of_ok fun x hx => ?_
          exact ih he fun a b y hy => hagree a b y (.last hlength (beq_iff_eq.mp hi) hx hy)
        · rfl
    | _ => cases h
  | anything o =>
    cases n with
    | anything o' => rfl
    | _ => cases h

/-- Alike matchers capture alike where one of them is defined: what is captured does not
    depend on the literals. -/
theorem Alike.bindings (h : m.Alike n) (hdefined : m.definedAt v = .ok true) :
    m.bindings v = n.bindings v := by
  induction m generalizing n v with
  | capture s o =>
    cases n with
    | capture s' o' =>
      cases h
      rfl
    | _ => cases h
  | literal =>
    cases n with
    | literal => rfl
    | _ => cases h
  | equalTo => cases h
  | nothing =>
    cases n with
    | nothing => rfl
    | _ => cases h
  | item head tail i o ihhead ihtail =>
    cases n with
    | item head' tail' j o' =>
      obtain ⟨hhead, htail, rfl⟩ := h
      obtain ⟨⟨k, hlength, -⟩, x, hx, hheadDefined, htailDefined⟩ := definedAt_item_inv hdefined
      have hsequence := isSequence_of_length? hlength
      rw [bindings_item hsequence hx, bindings_item hsequence hx, ihhead hhead hheadDefined,
        ihtail htail htailDefined]
    | _ => cases h
  | remainder head tail i o ihhead ihtail =>
    cases n with
    | remainder head' tail' j o' =>
      obtain ⟨hhead, -, rfl⟩ := h
      obtain ⟨⟨k, hlength, -⟩, hrest⟩ := definedAt_remainder_inv hdefined
      have hsequence := isSequence_of_length? hlength
      have hsame := hhead.isAnything_eq
      rcases hrest with hanything | ⟨hnot, x, hx, hheadDefined⟩
      · rw [bindings_remainder_anything hsequence hanything,
          bindings_remainder_anything hsequence (hsame ▸ hanything)]
      · rw [bindings_remainder hsequence hnot hx, bindings_remainder hsequence (hsame ▸ hnot) hx,
          ihhead hhead hheadDefined]
    | _ => cases h
  | last e i o ih =>
    cases n with
    | last e' j o' =>
      obtain ⟨he, rfl⟩ := h
      obtain ⟨⟨k, hlength, -⟩, x, hx, helement⟩ := definedAt_last_inv hdefined
      have hsequence := isSequence_of_length? hlength
      rw [bindings_last hsequence hx, bindings_last hsequence hx, ih he helement]
    | _ => cases h
  | anything =>
    cases n with
    | anything => rfl
    | _ => cases h

end Matcher

end Destructure
