/-
  Destructure/Proofs/Number/Integer.lean
  ======================================
  **Integers written with digits** — a run of digits, perhaps behind a minus, is read as
  the number that it writes, as long as it is not too long, and as nothing but too long
  if it is. Whatever a text looks like, a number that is read from it has no more digits
  than that.
-/
import Mathlib
import Destructure.Number.Reading
import Destructure.Value.Show

namespace Destructure

/-! ### Digits -/

/-- The runs of ten digits do not overlap. -/
theorem digitZeros_apart : digitZeros.Pairwise fun y z => y + 9 < z := by decide

/-- The script of a digit is found by its zero. -/
theorem find?_digitZeros {z d : Nat} (hz : z ∈ digitZeros) (hd : d < 10) :
    digitZeros.find? (fun y => y ≤ z + d && z + d ≤ y + 9) = some z := by
  obtain ⟨before, after, heq⟩ := List.append_of_mem hz
  have hapart := digitZeros_apart
  rw [heq, List.pairwise_append] at hapart
  have hbefore : before.find? (fun y => y ≤ z + d && z + d ≤ y + 9) = none := by
    rw [List.find?_eq_none]
    intro y hy
    have hlt := hapart.2.2 y hy z List.mem_cons_self
    rw [Bool.and_eq_true, decide_eq_true_eq, decide_eq_true_eq]
    omega
  have hrun : (z ≤ z + d && z + d ≤ z + 9) = true := by
    rw [Bool.and_eq_true, decide_eq_true_eq, decide_eq_true_eq]
    omega
  rw [heq, List.find?_append, hbefore, Option.none_or]
  exact List.find?_cons_of_pos hrun

/-- The value of a digit is its distance from the zero of its script. -/
theorem digitValue?_eq_some_iff {c d : Nat} :
    digitValue? c = some d ↔ d < 10 ∧ ∃ z ∈ digitZeros, c = z + d := by
  constructor
  · intro h
    unfold digitValue? at h
    split at h
    · split at h
      · next hdigit =>
        cases h
        exact ⟨by omega, 0x30, by decide, by omega⟩
      · cases h
    · obtain ⟨z, hz, rfl⟩ := Option.map_eq_some_iff.mp h
      have hrun := List.find?_some hz
      rw [Bool.and_eq_true, decide_eq_true_eq, decide_eq_true_eq] at hrun
      exact ⟨by omega, z, List.mem_of_find?_eq_some hz, by omega⟩
  · rintro ⟨hd, z, hz, rfl⟩
    have hfirst : z = 0x30 ∨ 0x80 ≤ z := by
      revert z
      decide
    rcases hfirst with rfl | hlarge
    · rw [digitValue?, if_pos (by omega), if_pos (by omega), Nat.add_sub_cancel_left]
    · rw [digitValue?, if_neg (by omega), find?_digitZeros hz hd, Option.map_some,
        Nat.add_sub_cancel_left]

theorem digitValue?_lt {c d : Nat} (h : digitValue? c = some d) : d < 10 :=
  (digitValue?_eq_some_iff.mp h).1

theorem isDecimalDigit_of_isDigit {c : Char} (h : c.isDigit = true) : isDecimalDigit c = true := by
  have hbounds : 0x30 ≤ c.toNat ∧ c.toNat ≤ 0x39 := by
    simpa [Char.isDigit, UInt32.le_iff_toNat_le] using h
  rw [isDecimalDigit, digitValue?, if_pos (by omega), if_pos hbounds]
  rfl

/-- The characters are digits, of any scripts, with the values. -/
def HasDigits (cs : List Char) (ds : List Nat) : Prop :=
  List.Forall₂ (fun c d => d < 10 ∧ ∃ z ∈ digitZeros, c.toNat = z + d) cs ds

theorem hasDigits_iff {cs : List Char} {ds : List Nat} :
    HasDigits cs ds ↔ List.Forall₂ (fun c d => digitValue? c.toNat = some d) cs ds := by
  simp only [HasDigits, digitValue?_eq_some_iff]

theorem exists_hasDigits {cs : List Char} (h : ∀ c ∈ cs, isDecimalDigit c = true) :
    ∃ ds, HasDigits cs ds := by
  simp only [hasDigits_iff]
  induction cs with
  | nil => exact ⟨[], .nil⟩
  | cons c cs ih =>
    obtain ⟨d, hd⟩ := Option.isSome_iff_exists.mp (h c List.mem_cons_self)
    obtain ⟨ds, hds⟩ := ih fun c hc => h c (List.mem_cons_of_mem _ hc)
    exact ⟨d :: ds, .cons hd hds⟩

theorem HasDigits.all_digits {cs : List Char} {ds : List Nat} (h : HasDigits cs ds) :
    ∀ c ∈ cs, isDecimalDigit c = true := by
  rw [hasDigits_iff] at h
  induction h with
  | nil => simp
  | cons hd _ ih =>
    intro c hc
    rcases List.mem_cons.mp hc with rfl | hc
    · rw [isDecimalDigit, hd]
      rfl
    · exact ih c hc

/-- Digits write the number of which they are the decimal digits. -/
theorem HasDigits.digitsValue {cs : List Char} {ds : List Nat} (h : HasDigits cs ds) :
    digitsValue cs = Nat.ofDigits 10 ds.reverse := by
  have hvalues : cs.map (fun c => (digitValue? c.toNat).getD 0) = ds := by
    rw [hasDigits_iff] at h
    induction h with
    | nil => rfl
    | cons hd _ ih => rw [List.map_cons, ih, hd, Option.getD_some]
  rw [Nat.ofDigits_eq_foldr, List.foldr_reverse, ← hvalues, List.foldl_map,
    Destructure.digitsValue]
  simp only [Nat.cast_id, Nat.add_comm]

theorem digitsValue_append (cs : List Char) (c : Char) :
    digitsValue (cs ++ [c]) = 10 * digitsValue cs + (digitValue? c.toNat).getD 0 := by
  rw [digitsValue, List.foldl_append]
  rfl

/-- Digits write a number below the power of ten that their count gives. -/
theorem digitsValue_lt (cs : List Char) : digitsValue cs < 10 ^ cs.length := by
  induction cs using List.reverseRecOn with
  | nil => exact Nat.one_pos
  | append_singleton cs c ih =>
    have hlast : (digitValue? c.toNat).getD 0 < 10 := by
      cases hc : digitValue? c.toNat with
      | none => exact Nat.succ_pos 9
      | some d => exact digitValue?_lt hc
    rw [digitsValue_append, List.length_append, List.length_singleton, Nat.pow_succ]
    omega

theorem digitsValue_lt_of_length_le {cs : List Char} {k : Nat} (h : cs.length ≤ k) :
    digitsValue cs < 10 ^ k :=
  Nat.lt_of_lt_of_le (digitsValue_lt cs) (Nat.pow_le_pow_right (Nat.succ_pos 9) h)

/-- A number is written with its decimal digits. -/
theorem digitsValue_toDigits (n : Nat) : digitsValue (Nat.toDigits 10 n) = n := by
  have hdigit : ∀ d < 10, digitValue? (Nat.digitChar d).toNat = some d := by decide
  induction n using Nat.strongRecOn with
  | _ n ih =>
    rw [Nat.toDigits_eq_if (by decide)]
    split
    · next hn =>
      have hlast := digitsValue_append [] n.digitChar
      rw [hdigit n hn] at hlast
      simpa [digitsValue] using hlast
    · next hn =>
      rw [digitsValue_append, ih (n / 10) (by omega), hdigit (n % 10) (by omega),
        Option.getD_some]
      omega

/-- No blank is a digit. -/
theorem isNumberBlank_eq_false {c : Char} (h : isDecimalDigit c = true) :
    isNumberBlank c = false := by
  by_contra hblank
  rw [Bool.not_eq_false, isNumberBlank] at hblank
  rw [isDecimalDigit] at h
  have hnone : ∀ n ∈ [0x09, 0x0a, 0x0b, 0x0c, 0x0d, 0x20, 0x85, 0xa0, 0x1680, 0x2000, 0x2001,
      0x2002, 0x2003, 0x2004, 0x2005, 0x2006, 0x2007, 0x2008, 0x2009, 0x200a, 0x2028, 0x2029,
      0x202f, 0x205f, 0x3000], digitValue? n = none := by decide
  rw [hnone c.toNat] at h
  · cases h
  · simp only [Bool.or_eq_true, Bool.and_eq_true, decide_eq_true_eq, beq_iff_eq] at hblank
    simp only [List.mem_cons, List.not_mem_nil, or_false]
    omega

/-! ### Texts that are kept as they are -/

theorem trimBlanks_eq_self {isBlank : Char → Bool} {cs : List Char}
    (h : ∀ c ∈ cs, isBlank c = false) : trimBlanks isBlank cs = cs := by
  have hkept : ∀ ds : List Char, (∀ c ∈ ds, isBlank c = false) → ds.dropWhile isBlank = ds := by
    intro ds hds
    cases ds with
    | nil => rfl
    | cons d ds => rw [List.dropWhile_cons, hds d (by simp), if_neg Bool.false_ne_true]
  have hreverse : ∀ c ∈ cs.reverse, isBlank c = false := fun c hc => h c (List.mem_reverse.mp hc)
  rw [trimBlanks, hkept cs h, hkept cs.reverse hreverse, List.reverse_reverse]

theorem ungroup?_eq_self {cs : List Char} (h : '_' ∉ cs) (afterDigit : Bool) :
    ungroup? afterDigit cs = some cs := by
  induction cs generalizing afterDigit with
  | nil => rfl
  | cons c cs ih =>
    have hc : c ≠ '_' := fun heq => h (by simp [heq])
    have hcs : '_' ∉ cs := fun hmem => h (List.mem_cons_of_mem _ hmem)
    cases cs with
    | nil => simp [ungroup?, hc]
    | cons d cs => simp [ungroup?, hc, ih hcs]

/-! ### Integers -/

/-- Without blanks and underscores, a text is read as it stands. -/
theorem readInteger_of_plain {cs : List Char} (hblank : ∀ c ∈ cs, isNumberBlank c = false)
    (hgroup : '_' ∉ cs) :
    readInteger cs =
      if (splitSign cs).2.isEmpty || !(splitSign cs).2.all isDecimalDigit then .error .malformed
      else if integerDigitLimit < (splitSign cs).2.length then
        .error (.tooManyDigits (splitSign cs).2.length)
      else .ok (if (splitSign cs).1 then -(digitsValue (splitSign cs).2 : Int)
        else digitsValue (splitSign cs).2) := by
  rw [readInteger, trimBlanks_eq_self hblank, ungroup?_eq_self hgroup]

/-- Digits behind an optional minus write a number, unless there are too many. -/
theorem readInteger_digits {ds : List Char} (hne : ds ≠ [])
    (hdigits : ∀ c ∈ ds, isDecimalDigit c = true) (negative : Bool) :
    readInteger ((if negative then ['-'] else []) ++ ds) =
      if integerDigitLimit < ds.length then .error (.tooManyDigits ds.length)
      else .ok (if negative then -(digitsValue ds : Int) else digitsValue ds) := by
  have hsplit : splitSign ((if negative then ['-'] else []) ++ ds) = (negative, ds) := by
    cases negative with
    | true => rfl
    | false =>
      cases ds with
      | nil => exact absurd rfl hne
      | cons c ds =>
        have hc := hdigits c (by simp)
        simp only [Bool.false_eq_true, if_false, List.nil_append]
        unfold splitSign
        split
        · next heq =>
          cases heq
          exact absurd hc (by decide)
        · next heq =>
          cases heq
          exact absurd hc (by decide)
        · rfl
  rw [readInteger_of_plain, hsplit]
  · have hempty : ds.isEmpty = false := by simpa using hne
    have hall : ds.all isDecimalDigit = true := List.all_eq_true.mpr hdigits
    simp [hempty, hall]
  · intro c hc
    rcases List.mem_append.mp hc with hc | hc
    · cases negative with
      | true =>
        rw [List.mem_singleton.mp hc]
        rfl
      | false => cases hc
    · exact isNumberBlank_eq_false (hdigits c hc)
  · intro hc
    rcases List.mem_append.mp hc with hc | hc
    · cases negative with
      | true => cases List.mem_singleton.mp hc
      | false => cases hc
    · cases hdigits '_' hc

theorem Value.isWritableInteger_iff {n : Int} :
    isWritableInteger n = true ↔ n.natAbs < 10 ^ integerDigitLimit := by
  unfold isWritableInteger writtenLimit
  generalize integerDigitLimit = k
  exact decide_eq_true_iff

/-- A number that is read from a text can be written with as many digits as are
    allowed. -/
theorem isWritableInteger_of_readInteger {cs : List Char} {n : Int}
    (h : readInteger cs = .ok n) : Value.isWritableInteger n = true := by
  rw [Value.isWritableInteger_iff]
  unfold readInteger at h
  split at h
  · cases h
  · next ds _ =>
    dsimp only at h
    split at h
    · cases h
    · split at h
      · cases h
      · next hlimit =>
        have hlt := digitsValue_lt_of_length_le (Nat.not_lt.mp hlimit)
        cases h
        split
        · rwa [Int.natAbs_neg, Int.natAbs_natCast]
        · rwa [Int.natAbs_natCast]

end Destructure
