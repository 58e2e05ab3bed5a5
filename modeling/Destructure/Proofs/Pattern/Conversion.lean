/-
  Destructure/Proofs/Pattern/Conversion.lean
  ==========================================
  **Literals without a value** — of all that can be wrong with a number or a string, two
  things are left once it is a word of its terminal: an integer is written with too many
  digits, or a backslash in a string stands before a character that it cannot stand
  before (`Lexeme.fails_of_value`). A floating-point number always has a value, whatever
  its size, and quotes are always around a string.
-/
import Destructure.Pattern.Literal
import Destructure.Proofs.Number.Integer
import Destructure.Proofs.Outcome
import Destructure.Proofs.Pattern.Derivation
import Destructure.Proofs.Pattern.Quotation

namespace Destructure

/-- How many digits a number is written with, those of its exponent included. -/
def digitCount (cs : List Char) : Nat := cs.countP isDecimalDigit

/-! ### Signs -/

/-- A sign is taken off digits, and nothing else is. -/
theorem splitSign_append {sign body : List Char}
    (hbody : NotAtHead (fun c => c = '+' || c = '-') body)
    (hsign : sign ∈ optional (charOf fun c => c = '+' || c = '-')) :
    (splitSign (sign ++ body)).2 = body := by
  rcases mem_optional.mp hsign with ⟨c, hc, rfl⟩ | rfl
  · simp only [Bool.or_eq_true, decide_eq_true_eq] at hc
    rcases hc with rfl | rfl <;> rfl
  · rw [List.nil_append]
    unfold splitSign
    split
    · cases hbody _ rfl
    · cases hbody _ rfl
    · rfl

theorem notSign_of_digits {ds : List Char} (hds : ds ∈ digitRun) (rest : List Char) :
    NotAtHead (fun c => c = '+' || c = '-') (ds ++ rest) := by
  obtain ⟨hne, hdigits⟩ := mem_digitRun.mp hds
  obtain ⟨d, ds, rfl⟩ := List.exists_cons_of_ne_nil hne
  have hd : isDecimalDigit d = true := hdigits d (by simp)
  intro c hc
  simp only [List.cons_append, List.head?_cons, Option.mem_some_iff] at hc
  subst hc
  have hplus : d ≠ '+' := isDecimalDigit_ne hd (by decide)
  have hminus : d ≠ '-' := isDecimalDigit_ne hd (by decide)
  simp [hplus, hminus]

theorem minus_mem_sign {m : List Char} (hm : m ∈ optional {['-']}) :
    m ∈ optional (charOf fun c => c = '+' || c = '-') := by
  rcases mem_optional.mp hm with rfl | rfl
  · exact mem_optional.mpr (Or.inl ⟨'-', by decide, rfl⟩)
  · exact mem_optional.mpr (Or.inr rfl)

/-! ### Integers -/

/-- The word is digits with the values, behind a minus or not. -/
def SignedDigits (negative : Bool) (ds : List Nat) (w : List Char) : Prop :=
  ds ≠ [] ∧ ∃ cs, HasDigits cs ds ∧ w = (if negative then ['-'] else []) ++ cs

theorem HasDigits.ne_nil_iff {cs : List Char} {ds : List Nat} (h : HasDigits cs ds) :
    cs ≠ [] ↔ ds ≠ [] := by
  rw [← List.length_pos_iff, ← List.length_pos_iff, h.length_eq]

theorem mem_integerLexemes {w : List Char} :
    w ∈ integerLexemes ↔ ∃ negative ds, SignedDigits negative ds w := by
  constructor
  · intro hw
    obtain ⟨m, hm, cs, hcs, rfl⟩ := Language.mem_mul.mp hw
    obtain ⟨hne, hdigits⟩ := mem_digitRun.mp hcs
    obtain ⟨ds, hds⟩ := exists_hasDigits hdigits
    rcases mem_optional.mp hm with rfl | rfl
    · exact ⟨true, ds, hds.ne_nil_iff.mp hne, cs, hds, rfl⟩
    · exact ⟨false, ds, hds.ne_nil_iff.mp hne, cs, hds, rfl⟩
  · rintro ⟨negative, ds, hne, cs, hds, rfl⟩
    have hminus : (if negative then ['-'] else []) ∈ optional ({['-']} : Language Char) := by
      cases negative with
      | true => exact mem_optional.mpr (Or.inl rfl)
      | false => exact mem_optional.mpr (Or.inr rfl)
    exact Language.append_mem_mul hminus
      (mem_digitRun.mpr ⟨hds.ne_nil_iff.mpr hne, hds.all_digits⟩)

theorem isFloating_integer {w : List Char} (hw : w ∈ integerLexemes) : isFloating w = false := by
  rw [isFloating, List.any_eq_false]
  intro c hc
  obtain ⟨m, hm, ds, hds, rfl⟩ := Language.mem_mul.mp hw
  rcases List.mem_append.mp hc with hc | hc
  · rcases mem_optional.mp hm with rfl | rfl
    · rw [List.mem_singleton.mp hc]
      decide
    · cases hc
  · have hdigit := (mem_digitRun.mp hds).2 c hc
    have hpoint : c ≠ '.' := isDecimalDigit_ne hdigit (by decide)
    have hsmall : c ≠ 'e' := isDecimalDigit_ne hdigit (by decide)
    have hcapital : c ≠ 'E' := isDecimalDigit_ne hdigit (by decide)
    simp [hpoint, hsmall, hcapital]

section Digits

variable {negative : Bool} {ds : List Nat} {w : List Char}

/-- Digits behind an optional minus are read as the number that they write, unless there
    are too many. -/
theorem SignedDigits.readNumber (h : SignedDigits negative ds w) :
    readNumber w =
      if integerDigitLimit < ds.length then .error (.number (.tooManyDigits ds.length))
      else .ok (.integer (if negative then -((Nat.ofDigits 10 ds.reverse : Nat) : Int)
        else (Nat.ofDigits 10 ds.reverse : Nat))) := by
  have hfloating := isFloating_integer (mem_integerLexemes.mpr ⟨negative, ds, h⟩)
  obtain ⟨hne, cs, hds, rfl⟩ := h
  rw [Destructure.readNumber, hfloating,
    readInteger_digits (hds.ne_nil_iff.mpr hne) hds.all_digits negative, hds.digitsValue,
    hds.length_eq]
  by_cases hlimit : integerDigitLimit < ds.length
  · simp only [if_pos hlimit]
    rfl
  · simp only [if_neg hlimit]
    rfl

theorem SignedDigits.digitCount (h : SignedDigits negative ds w) : digitCount w = ds.length := by
  obtain ⟨-, cs, hds, rfl⟩ := h
  have hminus : (if negative then ['-'] else []).countP isDecimalDigit = 0 := by
    cases negative <;> decide
  rw [Destructure.digitCount, List.countP_append, hminus,
    List.countP_eq_length.mpr hds.all_digits, Nat.zero_add, hds.length_eq]

end Digits

/-- An integer has a value unless it is written with too many digits. -/
theorem readNumber_integer {w : List Char} (hw : w ∈ integerLexemes) :
    ∃ n, readNumber w =
      if integerDigitLimit < digitCount w then .error (.number (.tooManyDigits (digitCount w)))
      else .ok (.integer n) := by
  obtain ⟨negative, ds, hds⟩ := mem_integerLexemes.mp hw
  exact ⟨_, by rw [hds.readNumber, hds.digitCount]⟩

/-! ### Floating-point numbers -/

theorem readExponent?_isSome {ex : List Char} (hex : ex ∈ optional exponentLexemes) :
    (readExponent? ex).isSome = true := by
  rcases mem_optional.mp hex with hex | rfl
  · obtain ⟨_, ⟨e, he, rfl⟩, _, htail, rfl⟩ := Language.mem_mul.mp hex
    obtain ⟨sign, hsign, ds, hds, rfl⟩ := Language.mem_mul.mp htail
    obtain ⟨hne, hdigits⟩ := mem_digitRun.mp hds
    have hletter : e = 'e' ∨ e = 'E' := by simpa using he
    have hfirst := notSign_of_digits hds []
    rw [List.append_nil] at hfirst
    have hbody := splitSign_append hfirst hsign
    have hall : ds.all isDecimalDigit = true := List.all_eq_true.mpr hdigits
    simp [readExponent?, hletter, hbody, hall, hne]
  · rfl

/-- Digits with a point and digits behind them, with an exponent, or both write a
    decimal. -/
theorem readDecimal?_isSome {ds rest : List Char} (hds : ds ∈ digitRun)
    (hrest : (∃ fs ∈ digitRun, ∃ ex ∈ optional exponentLexemes, rest = '.' :: (fs ++ ex)) ∨
      rest ∈ exponentLexemes) : (readDecimal? (ds ++ rest)).isSome = true := by
  obtain ⟨hne, hdigits⟩ := mem_digitRun.mp hds
  rcases hrest with ⟨fs, hfs, ex, hex, rfl⟩ | hex
  · have hpoint : NotAtHead isDecimalDigit ('.' :: (fs ++ ex)) := by
      intro c hc
      simp only [List.head?_cons, Option.mem_some_iff] at hc
      rw [← hc]
      decide
    have hnot : NotAtHead isDecimalDigit ex := by
      rcases mem_optional.mp hex with hex | rfl
      · have hnot := exponentLexemes_notDigit hex []
        rwa [List.append_nil] at hnot
      · intro c hc
        cases hc
    obtain ⟨htake, hdrop⟩ := takeWhile_append_exact hdigits hpoint
    obtain ⟨htake', hdrop'⟩ := takeWhile_append_exact (mem_digitRun.mp hfs).2 hnot
    have hexponent := readExponent?_isSome hex
    simp [readDecimal?, htake, hdrop, htake', hdrop', hne, hexponent]
  · have hnot := exponentLexemes_notDigit hex []
    rw [List.append_nil] at hnot
    obtain ⟨htake, hdrop⟩ := takeWhile_append_exact hdigits hnot
    have hexponent := readExponent?_isSome (mem_optional.mpr (Or.inl hex))
    obtain ⟨e, cs, rfl, he⟩ := exponentLexemes_head hex
    rcases he with rfl | rfl <;> simp [readDecimal?, htake, hdrop, hne, hexponent]

theorem exists_parts_of_float {w : List Char} (hw : w ∈ floatLexemes) :
    ∃ m ∈ optional {['-']}, ∃ ds ∈ digitRun, ∃ rest, w = m ++ (ds ++ rest) ∧
      ((∃ fs ∈ digitRun, ∃ ex ∈ optional exponentLexemes, rest = '.' :: (fs ++ ex)) ∨
        rest ∈ exponentLexemes) := by
  rcases (Language.mem_add _ _ _).mp hw with hw | hw
  · obtain ⟨whole, hwhole, _, hfraction, rfl⟩ := Language.mem_mul.mp hw
    obtain ⟨point, hpoint, _, hdecimals, rfl⟩ := Language.mem_mul.mp hfraction
    obtain ⟨fs, hfs, ex, hex, rfl⟩ := Language.mem_mul.mp hdecimals
    obtain ⟨m, hm, ds, hds, rfl⟩ := Language.mem_mul.mp hwhole
    obtain rfl := mem_singleton_word.mp hpoint
    refine ⟨m, hm, ds, hds, '.' :: (fs ++ ex), ?_, Or.inl ⟨fs, hfs, ex, hex, rfl⟩⟩
    rw [List.append_assoc]
    rfl
  · obtain ⟨whole, hwhole, ex, hex, rfl⟩ := Language.mem_mul.mp hw
    obtain ⟨m, hm, ds, hds, rfl⟩ := Language.mem_mul.mp hwhole
    exact ⟨m, hm, ds, hds, ex, List.append_assoc m ds ex, Or.inr hex⟩

theorem readFloat?_isSome {w : List Char} (hw : w ∈ floatLexemes) :
    (readFloat? w).isSome = true := by
  have hplain : ∀ c ∈ w, isNumberBlank c = false := by
    intro c hc
    rcases Numeric.float w hw c hc with hdigit | hmark
    · exact isNumberBlank_eq_false hdigit
    · simp only [numberMarks, List.mem_cons, List.not_mem_nil, or_false] at hmark
      rcases hmark with rfl | rfl | rfl | rfl | rfl <;> rfl
  have hgroup : '_' ∉ w := fun hmem => absurd (Numeric.float w hw '_' hmem) (by decide)
  rw [readFloat?, trimBlanks_eq_self hplain, ungroup?_eq_self hgroup]
  obtain ⟨m, hm, ds, hds, rest, rfl, hrest⟩ := exists_parts_of_float hw
  have hbody : (splitSign (m ++ (ds ++ rest))).2 = ds ++ rest :=
    splitSign_append (notSign_of_digits hds rest) (minus_mem_sign hm)
  have hdecimal := readDecimal?_isSome hds hrest
  dsimp only
  rw [hbody]
  split
  · rfl
  · rfl
  · rfl
  · rwa [Option.isSome_map]

theorem isFloating_float {w : List Char} (hw : w ∈ floatLexemes) : isFloating w = true := by
  obtain ⟨m, -, ds, -, rest, rfl, hrest⟩ := exists_parts_of_float hw
  rw [isFloating, List.any_append, List.any_append]
  rcases hrest with ⟨fs, -, ex, -, rfl⟩ | hex
  · simp
  · obtain ⟨e, cs, rfl, he⟩ := exponentLexemes_head hex
    rcases he with rfl | rfl <;> simp

/-- A floating-point number has a value, whatever its size. -/
theorem readNumber_float {w : List Char} (hw : w ∈ floatLexemes) :
    ∃ x, readNumber w = .ok (.float x) := by
  obtain ⟨x, hx⟩ := Option.isSome_iff_exists.mp (readFloat?_isSome hw)
  exact ⟨x, by rw [readNumber, if_pos (isFloating_float hw), hx]⟩

/-! ### All literals -/

/-- The two ways in which a literal of a text can be without a value: an integer is
    written with too many digits, or a character behind a backslash is no escape. -/
inductive Lexeme.Fails : Lexeme → LiteralFault → Prop
  | tooLong {w : List Char} : integerDigitLimit < digitCount w →
      Fails ⟨.integer, w⟩ (.number (.tooManyDigits (digitCount w)))
  | unknownEscape {before after : List Char} {c : Char} : escapeValue? c = none →
      Fails ⟨.string, before ++ '\\' :: c :: after⟩ (.unknownEscape c)

theorem readString_fails {w : List Char} (hw : w ∈ Terminal.string.lexemes)
    {fault : LiteralFault} (h : readString w = .error fault) : Lexeme.Fails ⟨.string, w⟩ fault := by
  rcases readString_cases hw with ⟨s, hs⟩ | ⟨e, ⟨⟨before, after, rfl, -⟩, hnone⟩, hfault⟩
  · rw [hs.readString] at h
    cases h
  · rw [hfault] at h
    cases h
    exact .unknownEscape (escapeValue?_eq_none_iff.mpr hnone)

/-- There is no third way. -/
theorem Lexeme.fails_of_value {l : Lexeme} (hl : l.text ∈ l.kind.terminal.lexemes)
    {fault : LiteralFault} (h : l.value = .error fault) : l.Fails fault := by
  obtain ⟨kind, w⟩ := l
  cases kind with
  | integer =>
    obtain ⟨n, hn⟩ := readNumber_integer (w := w) hl
    have h : readNumber w = .error fault := h
    rw [hn] at h
    split at h
    · next hlimit =>
      cases h
      exact .tooLong hlimit
    · cases h
  | float =>
    obtain ⟨x, hx⟩ := readNumber_float (w := w) hl
    have h : readNumber w = .error fault := h
    rw [hx] at h
    cases h
  | string => exact readString_fails hl h

end Destructure
