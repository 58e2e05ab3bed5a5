/-
  Destructure/Proofs/Number/Exactness.lean
  ========================================
  **Numbers that a format holds** — a format has a number if the significand and the
  weight of its last bit are within bounds. Whatever is rounded to a format becomes a
  number of the format (`BinaryFormat.holds_nearest`), and what a number of the format
  stands for is rounded to that number again (`BinaryFormat.quantity_ofRat`). So a
  floating-point number that is read from a text stands for what it is rounded to.
-/
import Mathlib
import Destructure.Number.Reading
import Destructure.Proofs.Number.Rounding

namespace Destructure

/-- Whether the format has the number. The special values are in every format. -/
def BinaryFormat.Holds (f : BinaryFormat) : Binary → Prop
  | .finite _ s e => s < 2 ^ f.precision ∧ f.leastExponent ≤ e ∧ e ≤ f.greatestExponent
  | .nan | .infinite _ => True

/-! ### Scaling -/

theorem scaleDown_div (num den : Nat) (e : Int) :
    ((scaleDown num den e).1 : ℚ) / (scaleDown num den e).2 = num / den / 2 ^ e := by
  have hpow : ∀ k, Nat.pow 2 k = 2 ^ k := fun _ => rfl
  rw [scaleDown]
  split_ifs with he
  · obtain ⟨k, rfl⟩ : ∃ k : Nat, e = -(k : Int) := ⟨e.natAbs, by omega⟩
    rw [Int.natAbs_neg, Int.natAbs_natCast, hpow]
    push_cast
    rw [zpow_neg, zpow_natCast]
    field_simp
  · obtain ⟨k, rfl⟩ : ∃ k : Nat, e = (k : Int) := ⟨e.natAbs, by omega⟩
    rw [Int.natAbs_natCast, hpow]
    push_cast
    rw [zpow_natCast]
    field_simp

theorem scaleDown_snd_pos (num : Nat) {den : Nat} (hden : 0 < den) (e : Int) :
    0 < (scaleDown num den e).2 := by
  have hpow : 0 < Nat.pow 2 e.natAbs := Nat.two_pow_pos e.natAbs
  rw [scaleDown]
  split_ifs
  · exact hden
  · exact Nat.mul_pos hden hpow

/-- Scaled down, a quotient is below a power of two exactly if the quotient itself is
    below that power scaled up. -/
theorem scaleDown_lt_iff (num : Nat) {den : Nat} (hden : 0 < den) (e : Int) (j : Nat) :
    (scaleDown num den e).1 < (scaleDown num den e).2 * 2 ^ j ↔
      (num / den : ℚ) < 2 ^ (e + j) := by
  have hpos : (0 : ℚ) < (scaleDown num den e).2 := by
    exact_mod_cast scaleDown_snd_pos num hden e
  have hpow : (0 : ℚ) < 2 ^ e := zpow_pos two_pos e
  calc
    (scaleDown num den e).1 < (scaleDown num den e).2 * 2 ^ j ↔
        ((scaleDown num den e).1 : ℚ) < (scaleDown num den e).2 * 2 ^ j := by norm_cast
    _ ↔ ((scaleDown num den e).1 : ℚ) / (scaleDown num den e).2 < 2 ^ j := by
        rw [div_lt_iff₀' hpos]
    _ ↔ (num / den : ℚ) < 2 ^ (e + j) := by
        rw [scaleDown_div, div_lt_iff₀ hpow, zpow_add₀ two_ne_zero, zpow_natCast, mul_comm]

theorem Binary.magnitude_eq (s : Nat) (e : Int) : Binary.magnitude s e = (s : ℚ) * 2 ^ e := by
  have hscaled := scaleDown_div s 1 (-e)
  rw [Binary.magnitude]
  generalize scaleDown s 1 (-e) = nd at hscaled ⊢
  obtain ⟨n, d⟩ := nd
  have hmk : mkRat n d = (n : ℚ) / d := by
    rw [Rat.mkRat_eq_div]
    rfl
  simp only [hmk, hscaled, Nat.cast_one, div_one, zpow_neg, div_inv_eq_mul]

/-! ### The greatest power of two -/

section Log

variable {num den : Nat} (hnum : 0 < num) (hden : 0 < den)

include hnum hden in
/-- The exponent of the greatest power of two is one of the two that the binary logarithms
    of the parts leave. -/
theorem log2_sub_bounds :
    (2 : ℚ) ^ ((Nat.log2 num : Int) - Nat.log2 den - 1) ≤ num / den ∧
      (num / den : ℚ) < 2 ^ ((Nat.log2 num : Int) - Nat.log2 den + 1) := by
  have hdenpos : (0 : ℚ) < den := by exact_mod_cast hden
  have hnumlow : (2 : ℚ) ^ (Nat.log2 num : Int) ≤ num := by
    rw [zpow_natCast]
    exact_mod_cast Nat.log2_self_le hnum.ne'
  have hnumhigh : (num : ℚ) < 2 ^ ((Nat.log2 num : Int) + 1) := by
    have hlt : num < 2 ^ (Nat.log2 num + 1) := Nat.lt_log2_self
    exact_mod_cast hlt
  have hdenlow : (2 : ℚ) ^ (Nat.log2 den : Int) ≤ den := by
    rw [zpow_natCast]
    exact_mod_cast Nat.log2_self_le hden.ne'
  have hdenhigh : (den : ℚ) < 2 ^ ((Nat.log2 den : Int) + 1) := by
    have hlt : den < 2 ^ (Nat.log2 den + 1) := Nat.lt_log2_self
    exact_mod_cast hlt
  constructor
  · rw [le_div_iff₀ hdenpos]
    calc
      (2 : ℚ) ^ ((Nat.log2 num : Int) - Nat.log2 den - 1) * den ≤
          2 ^ ((Nat.log2 num : Int) - Nat.log2 den - 1) * 2 ^ ((Nat.log2 den : Int) + 1) := by
        gcongr
      _ = 2 ^ (Nat.log2 num : Int) := by
        rw [← zpow_add₀ two_ne_zero]
        congr 1
        ring
      _ ≤ num := hnumlow
  · rw [div_lt_iff₀ hdenpos]
    calc
      (num : ℚ) < 2 ^ ((Nat.log2 num : Int) + 1) := hnumhigh
      _ = 2 ^ ((Nat.log2 num : Int) - Nat.log2 den + 1) * 2 ^ (Nat.log2 den : Int) := by
        rw [← zpow_add₀ two_ne_zero]
        congr 1
        ring
      _ ≤ 2 ^ ((Nat.log2 num : Int) - Nat.log2 den + 1) * den := by gcongr

include hnum hden in
theorem floorLog2_bounds :
    (2 : ℚ) ^ floorLog2 num den ≤ num / den ∧
      (num / den : ℚ) < 2 ^ (floorLog2 num den + 1) := by
  obtain ⟨hlow, hhigh⟩ := log2_sub_bounds hnum hden
  have hscaled := scaleDown_lt_iff num hden ((Nat.log2 num : Int) - Nat.log2 den) 0
  rw [pow_zero, Nat.mul_one, Int.ofNat_zero, add_zero] at hscaled
  rw [floorLog2]
  by_cases hlt : (scaleDown num den ((Nat.log2 num : Int) - Nat.log2 den)).1 <
      (scaleDown num den ((Nat.log2 num : Int) - Nat.log2 den)).2
  · simp only [if_pos hlt, sub_add_cancel]
    exact ⟨hlow, hscaled.mp hlt⟩
  · simp only [if_neg hlt]
    exact ⟨not_lt.mp fun h => hlt (hscaled.mpr h), hhigh⟩

end Log

/-! ### Rounding to a format -/

/-- Of a quotient without a remainder nothing is rounded. -/
theorem roundHalfEven_mul {d : Nat} (hd : 0 < d) (q : Nat) : roundHalfEven (d * q) d = q := by
  rw [roundHalfEven, Nat.mul_div_cancel_left q hd, Nat.mul_mod_right]
  exact if_pos hd

namespace BinaryFormat

variable {f : BinaryFormat} {num den : Nat} {e : Int}

/-- The last bit weighs so much that the significand has room for the quotient. -/
theorem scaled_lt (hnum : 0 < num) (hden : 0 < den)
    (he : max (floorLog2 num den - f.precision + 1) f.leastExponent = e) :
    (scaleDown num den e).1 < (scaleDown num den e).2 * 2 ^ f.precision := by
  rw [scaleDown_lt_iff num hden]
  exact (floorLog2_bounds hnum hden).2.trans_le (zpow_le_zpow_right₀ one_le_two (by omega))

/-- What is rounded to a format is a number of the format. -/
theorem holds_nearest (hexponents : f.leastExponent ≤ f.greatestExponent) (negative : Bool)
    (num : Nat) {den : Nat} (hden : 0 < den) : f.Holds (f.nearest negative num den) := by
  rw [nearest]
  split_ifs with hnum
  · exact ⟨Nat.two_pow_pos f.precision, le_refl _, hexponents⟩
  · obtain ⟨e, he⟩ : ∃ e, max (floorLog2 num den - f.precision + 1) f.leastExponent = e :=
      ⟨_, rfl⟩
    have hmost := roundHalfEven_le (scaled_lt (Nat.pos_of_ne_zero hnum) hden he)
    have hpow : Nat.pow 2 f.precision = 2 ^ f.precision := rfl
    have hhalf : 2 ^ f.precision / 2 < 2 ^ f.precision :=
      Nat.div_lt_self (Nat.two_pow_pos f.precision) (by decide)
    simp only [he, hpow]
    split_ifs with hs hinfinite hinfinite
    · trivial
    · -- rounding has filled the significand, which gives up its last bit
      rw [hs]
      exact ⟨hhalf, by omega, by omega⟩
    · trivial
    · exact ⟨lt_of_le_of_ne hmost hs, by omega, by omega⟩

section Exact

variable {s : Nat} (hnum : 0 < num) (hden : 0 < den)

include hnum hden in
/-- A number of the format has no smaller weight for its last bit than what it stands for
    is given in rounding. -/
theorem weight_le (hs : s < 2 ^ f.precision) (hleast : f.leastExponent ≤ e)
    (hvalue : (num / den : ℚ) = s * 2 ^ e) :
    max (floorLog2 num den - f.precision + 1) f.leastExponent ≤ e := by
  have hs' : (s : ℚ) < 2 ^ f.precision := by exact_mod_cast hs
  have hlog : (2 : ℚ) ^ floorLog2 num den < 2 ^ ((f.precision : Int) + e) := by
    calc
      (2 : ℚ) ^ floorLog2 num den ≤ num / den := (floorLog2_bounds hnum hden).1
      _ = s * 2 ^ e := hvalue
      _ < 2 ^ f.precision * 2 ^ e := by gcongr
      _ = 2 ^ ((f.precision : Int) + e) := by rw [zpow_add₀ two_ne_zero, zpow_natCast]
  have hlt := (zpow_lt_zpow_iff_right₀ one_lt_two).mp hlog
  omega

include hden in
/-- With that weight nothing is left of the quotient to be rounded. -/
theorem scaleDown_fst {k : Nat} (hvalue : (num / den : ℚ) = s * 2 ^ (e + k)) :
    (scaleDown num den e).1 = (scaleDown num den e).2 * (s * 2 ^ k) := by
  have hscaled := scaleDown_div num den e
  have hd : ((scaleDown num den e).2 : ℚ) ≠ 0 := by
    exact_mod_cast (scaleDown_snd_pos num hden e).ne'
  rw [hvalue, div_eq_iff hd, zpow_add₀ two_ne_zero, zpow_natCast] at hscaled
  have hfst : ((scaleDown num den e).1 : ℚ) = (scaleDown num den e).2 * (s * 2 ^ k) := by
    rw [hscaled]
    field_simp
  exact_mod_cast hfst

end Exact

/-- What a number of the format stands for is kept in rounding. -/
theorem quantity_nearest {s : Nat} (hden : 0 < den) (hs : s < 2 ^ f.precision)
    (hleast : f.leastExponent ≤ e) (hgreatest : e ≤ f.greatestExponent)
    (hvalue : (num / den : ℚ) = s * 2 ^ e) (negative : Bool) :
    (f.nearest negative num den).quantity =
      .finite (if negative then -(num / den : ℚ) else num / den) := by
  by_cases hnum : num = 0
  · subst hnum
    simp [nearest, Binary.quantity, Binary.magnitude_eq]
  · have hpos := Nat.pos_of_ne_zero hnum
    have hweight := weight_le hpos hden hs hleast hvalue
    generalize he : max (floorLog2 num den - f.precision + 1) f.leastExponent = e' at hweight
    obtain ⟨k, rfl⟩ : ∃ k : Nat, e = e' + k := ⟨(e - e').toNat, by omega⟩
    have hroom := scaled_lt hpos hden he
    have hfst := scaleDown_fst hden hvalue
    have hround := roundHalfEven_mul (scaleDown_snd_pos num hden e') (s * 2 ^ k)
    rw [hfst] at hroom
    rw [← hfst] at hround
    have hlt : s * 2 ^ k < 2 ^ f.precision := Nat.lt_of_mul_lt_mul_left hroom
    have hpow : ¬ s * 2 ^ k = Nat.pow 2 f.precision := hlt.ne
    have hfinite : ¬ f.greatestExponent < e' := by omega
    have hmagnitude : Binary.magnitude (s * 2 ^ k) e' = num / den := by
      rw [Binary.magnitude_eq, hvalue, zpow_add₀ two_ne_zero, zpow_natCast]
      push_cast
      ring
    rw [nearest, if_neg hnum]
    simp only [he, hround, if_neg hpow, if_neg hfinite, Binary.quantity, hmagnitude]

/-- What a number of the format stands for is rounded to a number that stands for the
    same. -/
theorem quantity_ofRat {x : Binary} {q : ℚ} (hx : f.Holds x) (hq : x.quantity = .finite q) :
    (f.ofRat q).quantity = .finite q := by
  cases x with
  | nan | infinite b => cases hq
  | finite negative s e =>
    obtain ⟨hs, hleast, hgreatest⟩ := hx
    rw [Binary.quantity, Quantity.finite.injEq, Binary.magnitude_eq] at hq
    have hmagnitude : (q.num.natAbs / q.den : ℚ) = |q| := by
      rw [Nat.cast_natAbs, Int.cast_abs]
      conv_rhs => rw [← Rat.num_div_den q, abs_div, Nat.abs_cast]
    have habs : |q| = s * 2 ^ e := by
      have hpos : (0 : ℚ) ≤ s * 2 ^ e := by positivity
      rw [← hq]
      split_ifs
      · rw [abs_neg, abs_of_nonneg hpos]
      · rw [abs_of_nonneg hpos]
    rw [ofRat, quantity_nearest q.pos hs hleast hgreatest (hmagnitude.trans habs), hmagnitude]
    by_cases hneg : q < 0
    · simp [Rat.num_neg.mpr hneg, abs_of_neg hneg]
    · have hnum : ¬ q.num < 0 := fun h => hneg (Rat.num_neg.mp h)
      simp [hnum, abs_of_nonneg (not_lt.mp hneg)]

theorem holds_ofDecimal (hexponents : f.leastExponent ≤ f.greatestExponent) (negative : Bool)
    (d : Decimal) : f.Holds (f.ofDecimal negative d) := by
  rw [ofDecimal]
  split_ifs with hzero hlarge
  · exact ⟨Nat.two_pow_pos f.precision, le_refl _, hexponents⟩
  · trivial
  · have hpow : 0 < Nat.pow 10 (-d.exponent).natAbs := Nat.pow_pos (by decide)
    have hden : 0 < (shiftDown d.digits 1 (-d.exponent)).2 := by
      rw [shiftDown]
      split_ifs
      · exact Nat.one_pos
      · exact Nat.mul_pos Nat.one_pos hpow
    exact holds_nearest hexponents negative _ hden

end BinaryFormat

/-! ### Numbers read from text -/

/-- A floating-point number that is read from a text is a double. -/
theorem readFloat?_holds {cs : List Char} {x : Binary} (h : readFloat? cs = some x) :
    BinaryFormat.double.Holds x := by
  unfold readFloat? at h
  split at h
  · cases h
  · dsimp only at h
    split at h
    · cases h
      trivial
    · cases h
      trivial
    · cases h
      trivial
    · obtain ⟨d, -, rfl⟩ := Option.map_eq_some_iff.mp h
      exact BinaryFormat.holds_ofDecimal (by decide) _ d

end Destructure
