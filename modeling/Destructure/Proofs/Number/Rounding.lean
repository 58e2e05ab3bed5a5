/-
  Destructure/Proofs/Number/Rounding.lean
  =======================================
  **Integers that a format has no room for** — the rounding of an integer becomes an
  infinity from half a unit below the first power of two that is beyond the format
  (`BinaryFormat.ofInt?_eq_none_iff`). The half unit itself is a tie, and goes up, for
  the greatest significand is odd.
-/
import Mathlib
import Destructure.Number.Binary

namespace Destructure

/-! ### Rounding to an even number -/

/-- A quotient is rounded to at least an even number exactly if it is at most half a
    unit below. -/
theorem le_roundHalfEven_iff {m num den : Nat} (hden : 0 < den) (hm : m % 2 = 0) :
    m ≤ roundHalfEven num den ↔ 2 * (den * m) ≤ 2 * num + den := by
  obtain ⟨q, r, hr, rfl⟩ : ∃ q r, r < den ∧ num = den * q + r :=
    ⟨num / den, num % den, Nat.mod_lt _ hden, (Nat.div_add_mod num den).symm⟩
  have hq : (den * q + r) / den = q := by
    rw [Nat.mul_add_div hden, Nat.div_eq_of_lt hr, Nat.add_zero]
  have hmod : (den * q + r) % den = r := by
    rw [Nat.mul_add_mod, Nat.mod_eq_of_lt hr]
  rw [roundHalfEven, hq, hmod]
  rcases Nat.lt_trichotomy m (q + 1) with hbelow | rfl | habove
  · -- the quotient is not below `m`
    have hle : den * m ≤ den * q := Nat.mul_le_mul_left den (Nat.lt_succ_iff.mp hbelow)
    split_ifs <;> omega
  · -- the quotient is between an odd number and `m`, its successor
    rw [Nat.mul_add_one]
    split_ifs <;> omega
  · have hle : den * (q + 2) ≤ den * m := Nat.mul_le_mul_left den habove
    rw [Nat.mul_add] at hle
    split_ifs <;> omega

theorem roundHalfEven_le {m num den : Nat} (h : num < den * m) :
    roundHalfEven num den ≤ m := by
  have hq : num / den < m := Nat.div_lt_of_lt_mul h
  rw [roundHalfEven]
  split_ifs <;> omega

/-! ### Scaling -/

theorem scaleDown_natCast (num den k : Nat) :
    scaleDown num den (k : Int) = (num, den * 2 ^ k) := by
  rw [scaleDown, if_neg (Int.not_lt.mpr (Int.natCast_nonneg k)), Int.natAbs_natCast]
  rfl

theorem floorLog2_one {num : Nat} (h : num ≠ 0) : floorLog2 num 1 = (Nat.log2 num : Int) := by
  have hlog : (Nat.log2 num : Int) - (Nat.log2 1 : Nat) = (Nat.log2 num : Nat) := by
    have hone : Nat.log2 1 = 0 := by decide
    rw [hone, Int.ofNat_zero, Int.sub_zero]
  have hself : ¬ num < 2 ^ Nat.log2 num := Nat.not_lt.mpr (Nat.log2_self_le h)
  rw [floorLog2, hlog, scaleDown_natCast, Nat.one_mul]
  exact if_neg hself

/-! ### Infinity -/

section Format

variable {f : BinaryFormat} {num : Nat}

/-- What is rounded becomes an infinity if its last bit weighs too much, the one place
    counted that rounding may have added. -/
theorem nearest_infinite_iff (hnum : num ≠ 0) (negative : Bool) {n d : Nat} {e : Int}
    (he : max ((Nat.log2 num : Int) - f.precision + 1) f.leastExponent = e)
    (hscaled : scaleDown num 1 e = (n, d)) :
    (∃ b, f.nearest negative num 1 = .infinite b) ↔
      f.greatestExponent < if roundHalfEven n d = 2 ^ f.precision then e + 1 else e := by
  have hpow : Nat.pow 2 f.precision = 2 ^ f.precision := rfl
  rw [BinaryFormat.nearest, if_neg hnum, floorLog2_one hnum, he]
  simp only [hscaled, hpow]
  by_cases hs : roundHalfEven n d = 2 ^ f.precision
  · simp only [if_pos hs]
    split_ifs with hinfinite <;> simp [hinfinite]
  · simp only [if_neg hs]
    split_ifs with hinfinite <;> simp [hinfinite]

variable {g : Nat} (hleast : f.leastExponent ≤ 0) (hgreatest : f.greatestExponent = g + 1)
  (hprecision : 0 < f.precision)

include hleast hgreatest in
/-- A number that fits into the significand stays finite. -/
theorem nearest_finite_of_lt (h : num < 2 ^ f.precision) (negative : Bool) :
    ¬ ∃ b, f.nearest negative num 1 = .infinite b := by
  by_cases hnum : num = 0
  · rw [BinaryFormat.nearest, if_pos hnum]
    simp
  · have hlog : Nat.log2 num < f.precision := (Nat.log2_lt hnum).mpr h
    have he : max ((Nat.log2 num : Int) - f.precision + 1) f.leastExponent ≤ 0 := by omega
    rw [nearest_infinite_iff hnum negative rfl rfl]
    split_ifs <;> omega

theorem two_mul_two_pow (m n : Nat) : 2 ^ (n + 1 + m) = 2 * 2 ^ (m + n) := by
  rw [← Nat.pow_succ']
  congr 1
  omega

include hgreatest hprecision in
/-- The last bit of a number that fills the significand weighs too much, the place that
    rounding may add counted, exactly if the number is beyond the format by all but half a
    unit. -/
theorem weight_gt_iff {k : Nat} (hlow : 2 ^ (f.precision + k) ≤ 2 * num)
    (hhigh : num < 2 ^ (f.precision + k)) :
    f.greatestExponent <
        (if roundHalfEven num (2 ^ k) = 2 ^ f.precision then (k : Int) + 1 else k) ↔
      2 ^ (g + 1 + f.precision) ≤ num + 2 ^ g := by
  have hunit : 2 ^ g ≤ 2 ^ (f.precision + g) := Nat.pow_le_pow_right (by decide) (by omega)
  rw [two_mul_two_pow, hgreatest]
  rcases Nat.lt_trichotomy k (g + 1) with hbelow | rfl | habove
  · have hpow : 2 ^ (f.precision + k) ≤ 2 ^ (f.precision + g) :=
      Nat.pow_le_pow_right (by decide) (by omega)
    exact iff_of_false (by split_ifs <;> omega) (by omega)
  · -- the last bit has the greatest weight, so all hangs on the rounding
    have hproduct : 2 ^ (g + 1) * 2 ^ f.precision = 2 * 2 ^ (f.precision + g) := by
      rw [← Nat.pow_add, two_mul_two_pow]
    have heven : 2 ^ f.precision % 2 = 0 :=
      Nat.mod_eq_zero_of_dvd (dvd_pow_self 2 hprecision.ne')
    have hround : _ ≤ roundHalfEven num _ ↔ _ :=
      le_roundHalfEven_iff (Nat.two_pow_pos (g + 1)) heven
    have hmost : roundHalfEven num (2 ^ (g + 1)) ≤ 2 ^ f.precision :=
      roundHalfEven_le (by rwa [← Nat.pow_add, Nat.add_comm])
    have hlast : 2 ^ (g + 1) = 2 * 2 ^ g := Nat.pow_succ'
    rw [hproduct] at hround
    split_ifs with hs <;> omega
  · have hpow : 2 ^ (f.precision + g + 2) ≤ 2 ^ (f.precision + k) :=
      Nat.pow_le_pow_right (by decide) (by omega)
    have hpositive := Nat.two_pow_pos g
    rw [Nat.pow_succ, Nat.pow_succ] at hpow
    exact iff_of_true (by split_ifs <;> omega) (by omega)

include hleast hgreatest hprecision in
/-- A number is rounded to infinity exactly if it is beyond the format by all but half a
    unit. -/
theorem nearest_infinite_iff_le (negative : Bool) :
    (∃ b, f.nearest negative num 1 = .infinite b) ↔
      2 ^ (g + 1 + f.precision) ≤ num + 2 ^ g := by
  by_cases hsmall : num < 2 ^ f.precision
  · have hroom : 2 ^ f.precision ≤ 2 ^ (f.precision + g) :=
      Nat.pow_le_pow_right (by decide) (by omega)
    have hunit : 2 ^ g ≤ 2 ^ (f.precision + g) := Nat.pow_le_pow_right (by decide) (by omega)
    rw [two_mul_two_pow]
    exact iff_of_false (nearest_finite_of_lt hleast hgreatest hsmall negative) (by omega)
  · have hnum : num ≠ 0 := by
      rintro rfl
      exact hsmall (Nat.two_pow_pos f.precision)
    have hlog : f.precision ≤ Nat.log2 num := (Nat.le_log2 hnum).mpr (Nat.not_lt.mp hsmall)
    obtain ⟨k, hk⟩ : ∃ k, Nat.log2 num + 1 = f.precision + k :=
      ⟨Nat.log2 num + 1 - f.precision, by omega⟩
    have he : max ((Nat.log2 num : Int) - f.precision + 1) f.leastExponent = (k : Int) := by
      omega
    have hlow : 2 ^ (f.precision + k) ≤ 2 * num := by
      rw [← hk, Nat.pow_succ']
      exact Nat.mul_le_mul_left 2 (Nat.log2_self_le hnum)
    have hhigh : num < 2 ^ (f.precision + k) := hk ▸ Nat.lt_log2_self
    rw [nearest_infinite_iff hnum negative he (scaleDown_natCast num 1 k), Nat.one_mul]
    exact weight_gt_iff hgreatest hprecision hlow hhigh

end Format

/-- The format has no room for an integer exactly if its magnitude is beyond the format
    by all but half a unit. -/
theorem BinaryFormat.ofInt?_eq_none_iff {f : BinaryFormat} {g : Nat}
    (hleast : f.leastExponent ≤ 0) (hgreatest : f.greatestExponent = g + 1)
    (hprecision : 0 < f.precision) (n : Int) :
    f.ofInt? n = none ↔ 2 ^ (g + 1 + f.precision) ≤ n.natAbs + 2 ^ g := by
  rw [← nearest_infinite_iff_le hleast hgreatest hprecision (decide ((n : Rat).num < 0)),
    ofInt?, ofRat, Rat.num_intCast, Rat.den_intCast]
  cases f.nearest (decide (n < 0)) n.natAbs 1 <;> simp

/-- There is no double for an integer of `2 ^ 1024 - 2 ^ 970` or more in magnitude. -/
theorem double_ofInt?_eq_none_iff (n : Int) :
    BinaryFormat.double.ofInt? n = none ↔ 2 ^ 1024 ≤ n.natAbs + 2 ^ 970 := by
  have hbits : 970 + 1 + BinaryFormat.double.precision = 1024 := rfl
  rw [BinaryFormat.ofInt?_eq_none_iff (f := .double) (g := 970) (by decide) rfl (by decide), hbits]

end Destructure
