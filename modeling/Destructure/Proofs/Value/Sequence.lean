/-
  Destructure/Proofs/Value/Sequence.lean
  ======================================
  **Sequences that hold what they say** — an array is put together from as many
  elements as its shape has places, and whatever is taken out of it is so again. In
  such a value there is an element at each index below the length and at no other,
  and a suffix from each index up to the length.
-/
import Mathlib.Data.List.Basic
import Destructure.Proofs.Outcome
import Destructure.Value.Assembly
import Destructure.Value.Sequence

namespace Destructure

/-! ### Well-formed values -/

mutual

/-- Every array that can be reached through elements fills its shape. -/
def Value.WellFormed : Value → Prop
  | .sequence _ items => AllWellFormed items
  | .array _ shape elements => elements.length = shapeSize shape ∧ AllWellFormed elements
  | _ => True

def AllWellFormed : List Value → Prop
  | [] => True
  | v :: vs => v.WellFormed ∧ AllWellFormed vs

end

theorem allWellFormed_iff (vs : List Value) : AllWellFormed vs ↔ ∀ v ∈ vs, v.WellFormed := by
  induction vs with
  | nil => simp [AllWellFormed]
  | cons v vs ih => simp [AllWellFormed, ih]

theorem Value.withoutTrailingZeros_wellFormed {v : Value} (h : v.WellFormed) :
    v.withoutTrailingZeros.WellFormed := by
  cases v <;> exact h

/-- An array put together from well-formed elements is well-formed. -/
theorem Value.ofGrid_wellFormed {type : ElementType} {shape : List Nat} {elements : List Value}
    {v : Value} (helements : AllWellFormed elements)
    (hv : Value.ofGrid type shape elements = .ok v) : v.WellFormed := by
  unfold Value.ofGrid at hv
  split at hv
  · cases hv
  · next hsize =>
    have hlength : elements.length = shapeSize shape := (not_not.mp hsize).symm
    split at hv
    · cases hv
      refine ⟨by rw [List.length_map, hlength], ?_⟩
      rw [allWellFormed_iff] at helements ⊢
      intro w hw
      obtain ⟨u, hu, rfl⟩ := List.mem_map.mp hw
      exact Value.withoutTrailingZeros_wellFormed (helements u hu)
    · cases hv
      exact ⟨hlength, helements⟩

/-! ### Values that can be counted -/

mutual

/-- Nothing that is reached through items holds more items than can be counted. -/
def Value.Countable : Value → Prop
  | .sequence _ items => items.length ≤ Value.countLimit ∧ AllCountable items
  | _ => True

def AllCountable : List Value → Prop
  | [] => True
  | v :: vs => v.Countable ∧ AllCountable vs

end

theorem allCountable_iff (vs : List Value) : AllCountable vs ↔ ∀ v ∈ vs, v.Countable := by
  induction vs with
  | nil => simp [AllCountable]
  | cons v vs ih => simp [AllCountable, ih]

/-! ### Elements -/

theorem shapeSize_cons (n : Nat) (shape : List Nat) : shapeSize (n :: shape) = n * shapeSize shape := by
  have hfold : ∀ (k : Nat) (s : List Nat), s.foldl (· * ·) k = k * shapeSize s := by
    intro k s
    induction s generalizing k with
    | nil => simp [shapeSize]
    | cons m s ih =>
      rw [shapeSize, List.foldl_cons, List.foldl_cons, ih, ih (1 * m), Nat.one_mul, Nat.mul_assoc]
  rw [shapeSize, List.foldl_cons, hfold, Nat.one_mul]

namespace Value

variable {v x : Value} {i : Nat}

/-- There is an element at each index below the length. -/
theorem exists_elementAt? (hv : v.WellFormed) (hsequence : v.isSequence = true)
    (hi : i < v.length) : ∃ x, v.elementAt? i = some x := by
  cases v with
  | sequence kind items => exact ⟨items[i], List.getElem?_eq_getElem hi⟩
  | range start stop step => exact ⟨_, if_pos hi⟩
  | array type shape elements =>
    cases shape with
    | nil => cases hsequence
    | cons n shape =>
      have hn : i < n := hi
      cases shape with
      | nil =>
        have hlength : i < elements.length := by
          rw [hv.1, shapeSize_cons]
          simpa [shapeSize] using hn
        exact ⟨elements[i], by rw [elementAt?, if_pos hn, List.getElem?_eq_getElem hlength]⟩
      | cons m shape => exact ⟨_, if_pos hn⟩
  | _ => cases hsequence

/-- There is no element at any other index. -/
theorem elementAt?_eq_none (hi : ¬ i < v.length) : v.elementAt? i = Option.none := by
  cases v with
  | sequence kind items => exact List.getElem?_eq_none (Nat.not_lt.mp hi)
  | range start stop step => exact if_neg hi
  | array type shape elements =>
    cases shape with
    | nil => rfl
    | cons n shape => cases shape <;> exact if_neg hi
  | _ => rfl

theorem lt_length_of_elementAt? (h : v.elementAt? i = some x) : i < v.length := by
  by_contra hi
  rw [elementAt?_eq_none hi] at h
  cases h

/-- What is an element of a well-formed value is well-formed. -/
theorem WellFormed.elementAt? (hv : v.WellFormed) (h : v.elementAt? i = some x) :
    x.WellFormed := by
  have hi := lt_length_of_elementAt? h
  cases v with
  | sequence kind items =>
    exact (allWellFormed_iff items).mp hv x (List.mem_of_getElem? h)
  | range start stop step =>
    have hrange : i < rangeLength start stop step := hi
    rw [Value.elementAt?, if_pos hrange] at h
    cases h
    trivial
  | array type shape elements =>
    cases shape with
    | nil => cases h
    | cons n shape =>
      have helements := (allWellFormed_iff elements).mp hv.2
      have hn : i < n := hi
      cases shape with
      | nil =>
        rw [Value.elementAt?, if_pos hn] at h
        exact helements x (List.mem_of_getElem? h)
      | cons m shape =>
        simp only [Value.elementAt?, if_pos hn, Option.some.injEq] at h
        subst h
        refine ⟨?_, ?_⟩
        · have hlength : elements.length = n * shapeSize (m :: shape) := by
            rw [hv.1, shapeSize_cons]
          have hroom : i * shapeSize (m :: shape) + shapeSize (m :: shape) ≤
              n * shapeSize (m :: shape) := by
            rw [← Nat.succ_mul]
            exact Nat.mul_le_mul_right _ hn
          rw [List.length_take, List.length_drop]
          omega
        · rw [allWellFormed_iff]
          intro w hw
          exact helements w (List.mem_of_mem_drop (List.mem_of_mem_take hw))
  | _ => cases h

theorem element_eq_ok_iff : v.element (i : Int) = .ok x ↔ v.elementAt? i = some x := by
  have hi : ¬ (i : Int) < 0 := Int.not_lt.mpr (Int.natCast_nonneg i)
  simp only [element, if_neg hi, Int.toNat_natCast]
  cases v.elementAt? i with
  | none => simp
  | some y => simp

theorem element_eq_ok (h : v.elementAt? i = some x) : v.element (i : Int) = .ok x :=
  element_eq_ok_iff.mpr h

/-- A sequence without its first elements. -/
def dropped : Value → Nat → Value
  | sequence .tuple items, i => sequence .tuple (items.drop i)
  | sequence _ items, i => list (items.drop i)
  | range start stop step, i =>
    range (start + i * step) (start + rangeLength start stop step * step) step
  | array type (n :: shape) elements, i =>
    array type ((n - i) :: shape) (elements.drop (i * shapeSize shape))
  | v, _ => v

/-- A suffix is what is left without the first elements. Items that are listed one by one
    have to be few enough to be counted. -/
theorem suffix_eq_dropped (hsequence : v.isSequence = true)
    (hlimit : ∀ kind items, v = sequence kind items → items.length ≤ countLimit)
    (hi : i ≤ v.length) : v.suffix (i : Int) = .ok (v.dropped i) := by
  cases v with
  | sequence kind items =>
    have hskip : skipCount (i : Int) = .ok i := by
      have hcount : i ≤ countLimit := Nat.le_trans hi (hlimit kind items rfl)
      rw [skipCount, if_pos ⟨Int.natCast_nonneg i, by omega⟩, Int.toNat_natCast]
    cases kind with
    | list | tuple =>
      rw [suffix, cutOffset_natCast (n := items.length) hi]
      rfl
    | deque | bare =>
      rw [suffix, itemsFrom, hskip]
      rfl
  | range start stop step =>
    simp only [suffix, cutOffset_natCast (n := rangeLength start stop step) hi, dropped]
  | array type shape elements =>
    cases shape with
    | nil => cases hsequence
    | cons n shape => simp only [suffix, cutOffset_natCast (n := n) hi, dropped]
  | _ => cases hsequence

/-- There is a suffix from each index up to the length, if that can be counted. -/
theorem exists_suffix (hsequence : v.isSequence = true) (hlength : v.length ≤ countLimit)
    (hi : i ≤ v.length) : ∃ w, v.suffix (i : Int) = .ok w := by
  refine ⟨v.dropped i, suffix_eq_dropped hsequence ?_ hi⟩
  rintro kind items rfl
  exact hlength

/-! ### Lengths -/

theorem length?_eq_some (hsequence : v.isSequence = true) (hlength : v.length ≤ countLimit) :
    v.length? = .ok (some v.length) := by
  rw [length?, hsequence, if_pos hlength]
  rfl

theorem length?_eq_none (h : v.isSequence = false) : v.length? = .ok Option.none := by
  rw [length?, h]
  rfl

theorem length?_eq_error (hsequence : v.isSequence = true) (hlength : countLimit < v.length) :
    v.length? = .error .overflow := by
  rw [length?, hsequence, if_neg (Nat.not_le.mpr hlength)]
  rfl

end Value

end Destructure
