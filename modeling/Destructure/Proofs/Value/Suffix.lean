/-
  Destructure/Proofs/Value/Suffix.lean
  ====================================
  **Suffixes of sequences** — what a sequence has from an index on is a sequence again:
  it is shorter by the index, its elements are those from there on, and it fills its
  shape. This holds for each kind of sequence, whether it is cut or taken apart item by
  item, and it is all that a walk along a sequence needs (`Value.Suffixes.of_suffix`).
-/
import Mathlib.Data.Int.Basic
import Mathlib.Tactic.Choose
import Destructure.Proofs.Value.Sequence

namespace Destructure

/-! ### Ranges -/

/-- A range that stops exactly behind its last step has as many elements as it has
    steps. -/
theorem rangeLength_steps (start : Int) {step : Int} (hstep : step ≠ 0) (n : Nat) :
    rangeLength start (start + n * step) step = n := by
  rw [rangeLength]
  rcases Int.lt_or_gt_of_ne hstep with hneg | hpos
  · have hnumerator : start - (start + n * step) - step - 1 = (-step - 1) + n * -step := by
      rw [Int.mul_neg]
      omega
    rw [if_neg (by omega), if_pos hneg, hnumerator, Int.add_mul_ediv_right _ _ (by omega),
      Int.ediv_eq_zero_of_lt (by omega) (by omega), Int.zero_add, Int.toNat_natCast]
  · have hnumerator : start + n * step - start + step - 1 = (step - 1) + n * step := by omega
    rw [if_pos hpos, hnumerator, Int.add_mul_ediv_right _ _ hstep,
      Int.ediv_eq_zero_of_lt (by omega) (by omega), Int.zero_add, Int.toNat_natCast]

/-- The range of the steps from the `i`th on. -/
theorem rangeLength_from (start stop step : Int) {i : Nat}
    (hi : i ≤ rangeLength start stop step) :
    rangeLength (start + i * step) (start + rangeLength start stop step * step) step =
      rangeLength start stop step - i := by
  by_cases hstep : step = 0
  · subst hstep
    simp [rangeLength]
  · generalize rangeLength start stop step = n at hi ⊢
    have hstop : start + (n : Int) * step = start + i * step + ((n - i : Nat) : Int) * step := by
      rw [Int.add_assoc, ← Int.add_mul]
      congr 2
      omega
    rw [hstop, rangeLength_steps _ hstep]

namespace Value

/-! ### What is left of a sequence -/

/-- `w` is what the sequence `v` has from index `i` on. -/
structure Suffixes (v w : Value) (i : Nat) : Prop where
  isSequence : w.isSequence = true
  wellFormed : w.WellFormed
  length : w.length = v.length - i
  elementAt? : ∀ j, w.elementAt? j = v.elementAt? (i + j)

theorem Suffixes.refl {v : Value} (hv : v.WellFormed) (hsequence : v.isSequence = true) :
    Suffixes v v 0 :=
  ⟨hsequence, hv, rfl, fun j => by rw [Nat.zero_add]⟩

theorem Suffixes.trans {u v w : Value} {i j : Nat} (h : Suffixes u v i) (h' : Suffixes v w j) :
    Suffixes u w (i + j) := by
  refine ⟨h'.isSequence, h'.wellFormed, ?_, ?_⟩
  · rw [h'.length, h.length, Nat.sub_sub]
  · intro k
    rw [h'.elementAt?, h.elementAt?, Nat.add_assoc]

theorem allWellFormed_drop {items : List Value} (h : AllWellFormed items) (i : Nat) :
    AllWellFormed (items.drop i) := by
  rw [allWellFormed_iff] at h ⊢
  exact fun v hv => h v (List.mem_of_mem_drop hv)

theorem suffixes_items {items : List Value} (hitems : AllWellFormed items)
    (kind kind' : SequenceKind) (i : Nat) :
    Suffixes (sequence kind items) (sequence kind' (items.drop i)) i :=
  ⟨rfl, allWellFormed_drop hitems i, List.length_drop, fun _ => List.getElem?_drop⟩

theorem suffixes_range {start stop step : Int} {i : Nat}
    (hi : i ≤ rangeLength start stop step) :
    Suffixes (range start stop step)
      (range (start + i * step) (start + rangeLength start stop step * step) step) i := by
  refine ⟨rfl, trivial, rangeLength_from start stop step hi, ?_⟩
  intro j
  rw [Value.elementAt?, Value.elementAt?, rangeLength_from start stop step hi]
  by_cases hj : i + j < rangeLength start stop step
  · rw [if_pos hj, if_pos (by omega)]
    push_cast
    rw [Int.add_assoc, ← Int.add_mul]
  · rw [if_neg hj, if_neg (by omega)]

theorem suffixes_array {type : ElementType} {n i : Nat} {shape : List Nat}
    {elements : List Value} (hv : (array type (n :: shape) elements).WellFormed) (hi : i ≤ n) :
    Suffixes (array type (n :: shape) elements)
      (array type ((n - i) :: shape) (elements.drop (i * shapeSize shape))) i := by
  refine ⟨rfl, ⟨?_, allWellFormed_drop hv.2 _⟩, rfl, ?_⟩
  · rw [List.length_drop, hv.1, shapeSize_cons, shapeSize_cons, Nat.sub_mul]
  · intro j
    have hj : j < n - i ↔ i + j < n := by omega
    cases shape with
    | nil => simp only [Value.elementAt?, hj, shapeSize, List.foldl_nil, Nat.mul_one,
        List.getElem?_drop]
    | cons m shape => simp only [Value.elementAt?, hj, List.drop_drop, Nat.add_mul]

theorem eq_of_skipCount {i k : Nat} (h : skipCount (i : Int) = .ok k) : k = i := by
  rw [skipCount] at h
  split at h
  · cases h
    exact Int.toNat_natCast i
  · cases h

/-- Whatever the kind of the sequence, a suffix from an index up to the length is what the
    sequence has from there on. -/
theorem Suffixes.of_suffix {v w : Value} {i : Nat} (hv : v.WellFormed)
    (hsequence : v.isSequence = true) (hi : i ≤ v.length) (hw : v.suffix (i : Int) = .ok w) :
    Suffixes v w i := by
  cases v with
  | sequence kind items =>
    cases kind with
    | list | tuple =>
      cases hw
      rw [cutOffset_natCast (n := items.length) hi]
      exact suffixes_items hv _ _ i
    | deque | bare =>
      obtain ⟨k, hk, hw⟩ := bind_eq_ok_iff.mp hw
      cases hw
      rw [eq_of_skipCount hk]
      exact suffixes_items hv _ _ i
  | range start stop step =>
    cases hw
    rw [cutOffset_natCast (n := rangeLength start stop step) hi]
    exact suffixes_range hi
  | array type shape elements =>
    cases shape with
    | nil => cases hsequence
    | cons n shape =>
      cases hw
      rw [cutOffset_natCast (n := n) hi]
      exact suffixes_array hv hi
  | _ => cases hsequence

/-! ### Suffixes of every kind -/

/-- Beside a sequence, another of the kind that its suffixes have: lists, tuples, ranges of
    one step and arrays with rows of one shape are cut, and what cannot be cut is listed. -/
inductive SuffixKind : Value → Value → Prop
  | list (xs ys : List Value) : SuffixKind (sequence .list xs) (sequence .list ys)
  | tuple (xs ys : List Value) : SuffixKind (sequence .tuple xs) (sequence .tuple ys)
  | deque (xs ys : List Value) : SuffixKind (sequence .deque xs) (sequence .list ys)
  | bare (text : Option String) (xs ys : List Value) :
      SuffixKind (sequence (.bare text) xs) (sequence .list ys)
  | range (a b a' b' step : Int) : SuffixKind (range a b step) (range a' b' step)
  | array (type : ElementType) (n m : Nat) (shape : List Nat) (xs ys : List Value) :
      SuffixKind (array type (n :: shape) xs) (array type (m :: shape) ys)

section Dropped

variable {v : Value} {i j : Nat}

theorem suffixKind_dropped (hsequence : v.isSequence = true) (i : Nat) :
    SuffixKind v (v.dropped i) := by
  cases v with
  | sequence kind items =>
    cases kind with
    | list => exact .list _ _
    | tuple => exact .tuple _ _
    | deque => exact .deque _ _
    | bare text => exact .bare _ _ _
  | range start stop step => exact .range _ _ _ _ _
  | array type shape elements =>
    cases shape with
    | nil => cases hsequence
    | cons n shape => exact .array _ _ _ _ _ _
  | _ => cases hsequence

theorem Countable.dropped (hcountable : v.Countable) (i : Nat) : (v.dropped i).Countable := by
  cases v with
  | sequence kind items =>
    have hitems : (list (items.drop i)).Countable := by
      refine ⟨?_, ?_⟩
      · have hlimit := hcountable.1
        rw [List.length_drop]
        omega
      · rw [allCountable_iff]
        intro w hw
        exact (allCountable_iff items).mp hcountable.2 w (List.mem_of_mem_drop hw)
    cases kind <;> exact hitems
  | array type shape elements => cases shape <;> trivial
  | _ => exact hcountable

theorem dropped_dropped (hij : i + j ≤ v.length) :
    (v.dropped i).dropped j = v.dropped (i + j) := by
  cases v with
  | sequence kind items => cases kind <;> simp only [dropped, List.drop_drop]
  | range start stop step =>
    have hi : i ≤ rangeLength start stop step := Nat.le_trans (Nat.le_add_right i j) hij
    have hstart : start + i * step + j * step = start + (i + j : Nat) * step := by
      push_cast
      rw [Int.add_mul, Int.add_assoc]
    have hstop : start + i * step + (rangeLength start stop step - i : Nat) * step =
        start + rangeLength start stop step * step := by
      rw [Int.ofNat_sub hi, Int.sub_mul]
      omega
    rw [dropped, dropped, dropped, rangeLength_from start stop step hi, hstart, hstop]
  | array type shape elements =>
    cases shape with
    | nil => rfl
    | cons n shape => simp only [dropped, List.drop_drop, Nat.sub_sub, Nat.add_mul]
  | _ => rfl

theorem Countable.suffix (hcountable : v.Countable) (hsequence : v.isSequence = true)
    (hi : i ≤ v.length) : v.suffix (i : Int) = .ok (v.dropped i) := by
  refine suffix_eq_dropped hsequence ?_ hi
  rintro kind items rfl
  exact hcountable.1

theorem suffixes_dropped (hv : v.WellFormed) (hsequence : v.isSequence = true)
    (hcountable : v.Countable) (hi : i ≤ v.length) : Suffixes v (v.dropped i) i :=
  .of_suffix hv hsequence hi (hcountable.suffix hsequence hi)

theorem Suffixes.element {w : Value} (h : Suffixes v w i) (j : Nat) :
    w.element (j : Int) = v.element ((i + j : Nat) : Int) := by
  have hleft : ¬ (j : Int) < 0 := Int.not_lt.mpr (Int.natCast_nonneg j)
  have hright : ¬ ((i + j : Nat) : Int) < 0 := Int.not_lt.mpr (Int.natCast_nonneg _)
  simp only [Value.element, if_neg hleft, if_neg hright, Int.toNat_natCast, h.elementAt?]

theorem Suffixes.length? {w : Value} {n : Nat} (h : Suffixes v w i)
    (hn : v.length? = .ok (some n)) : w.length? = .ok (some (n - i)) := by
  cases hsequence : v.isSequence with
  | false =>
    rw [length?_eq_none hsequence] at hn
    cases hn
  | true =>
    by_cases hlimit : v.length ≤ countLimit
    · rw [length?_eq_some hsequence hlimit] at hn
      cases hn
      have hw : w.length ≤ countLimit := by
        rw [h.length]
        omega
      rw [length?_eq_some h.isSequence hw, h.length]
    · rw [length?_eq_error hsequence (Nat.not_le.mp hlimit)] at hn
      cases hn

end Dropped

/-- A sequence of any kind has a suffix from each index up to its length. It is a sequence of
    the kind that can be cut, or else a list; it is shorter by the index, and its elements are
    those from the index on. The suffix of a suffix is the suffix from the sum of both. -/
theorem suffix_drops_front (v : Value) (hv : v.WellFormed) (hcountable : v.Countable)
    (hsequence : v.isSequence = true) :
    (∀ i : Nat, i ≤ v.length → ∃ w, v.suffix i = .ok w ∧ w.isSequence = true ∧
      w.length = v.length - i ∧ (∀ n, v.length? = .ok (some n) → w.length? = .ok (some (n - i))) ∧
      (∀ j : Nat, w.element j = v.element ((i + j : Nat) : Int)) ∧ SuffixKind v w) ∧
    ∀ i j : Nat, i + j ≤ v.length → ∃ w x, v.suffix i = .ok w ∧ w.suffix j = .ok x ∧
      v.suffix ((i + j : Nat) : Int) = .ok x := by
  refine ⟨?_, ?_⟩
  · intro i hi
    have hsuffix := suffixes_dropped hv hsequence hcountable hi
    exact ⟨v.dropped i, hcountable.suffix hsequence hi, hsuffix.isSequence,
      hsuffix.length, fun n hn => hsuffix.length? hn, hsuffix.element,
      suffixKind_dropped hsequence i⟩
  · intro i j hij
    have hi : i ≤ v.length := Nat.le_trans (Nat.le_add_right i j) hij
    have hsuffix := suffixes_dropped hv hsequence hcountable hi
    have hj : j ≤ (v.dropped i).length := by
      rw [hsuffix.length]
      omega
    refine ⟨v.dropped i, v.dropped (i + j), hcountable.suffix hsequence hi, ?_,
      hcountable.suffix hsequence hij⟩
    rw [(hcountable.dropped i).suffix hsuffix.isSequence hj, dropped_dropped hij]

/-- A range that counts down and whose end is not on its steps has the elements 7, 4 and 1;
    behind the first of them a range of two is left. -/
theorem suffix_drops_front_downwards :
    (range 7 0 (-3)).length = 3 ∧
    ∃ w, (range 7 0 (-3)).suffix 1 = .ok w ∧ w.length = 2 ∧ w.element 1 = .ok (integer 1) ∧
      ∃ x, w.suffix 2 = .ok x ∧ x.length = 0 := by
  obtain ⟨hfront, hsum⟩ := suffix_drops_front (range 7 0 (-3)) trivial trivial rfl
  obtain ⟨w, hw, -, hlength, -, helement, -⟩ := hfront 1 (by decide)
  obtain ⟨w', x, hw', hx, hx₃⟩ := hsum 1 2 (by decide)
  obtain ⟨x', hx', -, hempty, -⟩ := hfront 3 (by decide)
  cases hw.symm.trans hw'
  refine ⟨rfl, w, hw, hlength, helement 1, x, hx, ?_⟩
  cases hx₃.symm.trans hx'
  exact hempty

/-! ### Sequences as lists -/

/-- The sequence has the elements, in their order, and no others. -/
def HasElements (v : Value) (xs : List Value) : Prop := ∀ i, v.elementAt? i = xs[i]?

section Elements

variable {v w x : Value} {xs : List Value}

theorem exists_hasElements (hv : v.WellFormed) (hsequence : v.isSequence = true) :
    ∃ xs, v.HasElements xs := by
  have hall : ∀ i : Fin v.length, ∃ x, v.elementAt? i = some x :=
    fun i => exists_elementAt? hv hsequence i.isLt
  choose g hg using hall
  refine ⟨List.ofFn g, ?_⟩
  intro i
  by_cases hi : i < v.length
  · rw [hg ⟨i, hi⟩, List.getElem?_ofFn, dif_pos hi]
  · rw [elementAt?_eq_none hi, List.getElem?_ofFn, dif_neg hi]

theorem HasElements.length (h : v.HasElements xs) (hv : v.WellFormed)
    (hsequence : v.isSequence = true) : v.length = xs.length := by
  apply Nat.le_antisymm
  · by_contra hlt
    obtain ⟨x, hx⟩ := exists_elementAt? hv hsequence (Nat.not_le.mp hlt)
    rw [h, List.getElem?_eq_none (Nat.le_refl _)] at hx
    cases hx
  · by_contra hlt
    have hnone := h v.length
    rw [elementAt?_eq_none (Nat.lt_irrefl _), eq_comm, List.getElem?_eq_none_iff] at hnone
    exact hlt hnone

theorem HasElements.unique {ys : List Value} (h : v.HasElements xs) (h' : v.HasElements ys) :
    xs = ys :=
  List.ext_getElem? fun i => (h i).symm.trans (h' i)

theorem HasElements.tail (h : v.HasElements (x :: xs)) (hw : Suffixes v w 1) :
    w.HasElements xs := by
  intro i
  rw [hw.elementAt?, h, Nat.add_comm, List.getElem?_cons_succ]

end Elements

end Value

end Destructure
