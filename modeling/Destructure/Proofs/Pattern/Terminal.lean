/-
  Destructure/Proofs/Pattern/Terminal.lean
  ========================================
  **The languages of the terminals** — what each kind of token may be spelled like,
  as a regular language over characters, and that the token at the head of some
  characters is a word of its language. The other direction needs that the word
  ends where the token does: behind it stands nothing, a blank or punctuation
  (`Stops`). Then the token that is taken is the whole word and no other
  (`takeLexeme?_append`), although a number without a point or an exponent begins
  like one that has them.
-/
import Mathlib.Computability.Language
import Mathlib.Data.List.TakeWhile
import Destructure.Pattern.Token

namespace Destructure

open scoped Computability

/-! ### Languages -/

/-- One character of a class. -/
def charOf (p : Char → Bool) : Language Char := {w | ∃ c, p c = true ∧ w = [c]}

/-- A word or nothing. -/
def optional (l : Language Char) : Language Char := l + 1

/-- One digit or more. -/
def digitRun : Language Char := charOf isDecimalDigit * (charOf isDecimalDigit)∗

/-- Digits behind an optional minus. -/
def integerLexemes : Language Char := optional {['-']} * digitRun

/-- The letter of an exponent, an optional sign, digits. -/
def exponentLexemes : Language Char :=
  charOf (fun c => c = 'e' || c = 'E') * (optional (charOf fun c => c = '+' || c = '-') * digitRun)

/-- An integer with a fraction and perhaps an exponent, or with an exponent. -/
def floatLexemes : Language Char :=
  integerLexemes * ({['.']} * (digitRun * optional exponentLexemes)) + integerLexemes * exponentLexemes

/-- A lower-case letter or an underscore, then letters, digits and underscores. -/
def nameLexemes : Language Char := charOf isNameStart * (charOf isNamePart)∗

/-- One character of a string, or a backslash with the character behind it. -/
def stringUnit (quote : Char) : Language Char :=
  charOf (fun c => c ≠ quote && c ≠ '\\') + {['\\']} * charOf (fun c => c ≠ '\n')

/-- A string between two quotes of the kind. -/
def stringLexemes (quote : Char) : Language Char :=
  {[quote]} * ((stringUnit quote)∗ * {[quote]})

/-- The lexemes of a terminal. -/
def Terminal.lexemes : Terminal → Language Char
  | openBracket => {['[']}
  | closeBracket => {[']']}
  | comma => {[',']}
  | star => {['*']}
  | float => floatLexemes
  | integer => integerLexemes
  | name => nameLexemes
  | string => stringLexemes '"' + stringLexemes '\''

/-- Whether the terminal is a bracket, the comma or the star. -/
def Terminal.isPunctuation : Terminal → Bool
  | openBracket | closeBracket | comma | star => true
  | float | integer | name | string => false

/-! ### Membership -/

theorem mem_singleton_word {w v : List Char} : w ∈ ({v} : Language Char) ↔ w = v := Iff.rfl

theorem mem_optional {l : Language Char} {w : List Char} : w ∈ optional l ↔ w ∈ l ∨ w = [] := by
  rw [optional, Language.mem_add, Language.mem_one]

theorem mem_star_charOf {p : Char → Bool} {w : List Char} :
    w ∈ (charOf p)∗ ↔ ∀ c ∈ w, p c = true := by
  rw [Language.mem_kstar]
  constructor
  · rintro ⟨ws, rfl, hws⟩ c hc
    obtain ⟨v, hv, hcv⟩ := List.mem_flatten.mp hc
    obtain ⟨d, hd, rfl⟩ := hws v hv
    rwa [List.mem_singleton.mp hcv]
  · intro h
    refine ⟨w.map fun c => [c], (List.flatMap_singleton' w).symm, ?_⟩
    intro v hv
    obtain ⟨c, hc, rfl⟩ := List.mem_map.mp hv
    exact ⟨c, h c hc, rfl⟩

theorem mem_digitRun {w : List Char} :
    w ∈ digitRun ↔ w ≠ [] ∧ ∀ c ∈ w, isDecimalDigit c = true := by
  rw [digitRun, Language.mem_mul]
  constructor
  · rintro ⟨a, ⟨c, hc, rfl⟩, b, hb, rfl⟩
    rw [mem_star_charOf] at hb
    refine ⟨by simp, ?_⟩
    intro d hd
    rcases List.mem_append.mp hd with hd | hd
    · rwa [List.mem_singleton.mp hd]
    · exact hb d hd
  · rintro ⟨hne, h⟩
    obtain ⟨c, cs, rfl⟩ := List.exists_cons_of_ne_nil hne
    refine ⟨[c], ⟨c, h c (by simp), rfl⟩, cs, ?_, rfl⟩
    exact mem_star_charOf.mpr fun d hd => h d (by simp [hd])

theorem Terminal.exists_lexeme (t : Terminal) : ∃ w, w ∈ t.lexemes := by
  have hdigit : ['0'] ∈ digitRun := by
    rw [mem_digitRun]
    refine ⟨List.cons_ne_nil _ _, fun c hc => ?_⟩
    rw [List.mem_singleton.mp hc]
    decide
  have hinteger : [] ++ ['0'] ∈ integerLexemes :=
    Language.append_mem_mul (mem_optional.mpr (Or.inr rfl)) hdigit
  cases t with
  | openBracket | closeBracket | comma | star => exact ⟨_, mem_singleton_word.mpr rfl⟩
  | integer => exact ⟨_, hinteger⟩
  | float =>
    have hdecimals : ['0'] ++ [] ∈ digitRun * optional exponentLexemes :=
      Language.append_mem_mul hdigit (mem_optional.mpr (Or.inr rfl))
    exact ⟨_, Or.inl (Language.append_mem_mul hinteger
      (Language.append_mem_mul (mem_singleton_word.mpr rfl) hdecimals))⟩
  | name =>
    have hstart : ['a'] ∈ charOf isNameStart := ⟨'a', by decide, rfl⟩
    exact ⟨_, Language.append_mem_mul hstart (Language.nil_mem_kstar _)⟩
  | string =>
    have hbody : [] ++ ['"'] ∈ (stringUnit '"')∗ * {['"']} :=
      Language.append_mem_mul (Language.nil_mem_kstar _) (mem_singleton_word.mpr rfl)
    exact ⟨_, Or.inl (Language.append_mem_mul (mem_singleton_word.mpr rfl) hbody)⟩

/-! ### Where a word ends -/

/-- The first of some characters, if there is one, is not in the class. -/
def NotAtHead (p : Char → Bool) (cs : List Char) : Prop := ∀ c ∈ cs.head?, p c = false

/-- Nothing stands here, or a blank, or punctuation. -/
def Stops (cs : List Char) : Prop :=
  ∀ c ∈ cs.head?, isBlank c = true ∨ (punctuation? c).isSome = true

theorem punctuation?_eq_some {c : Char} {t : Terminal} (h : punctuation? c = some t) :
    (c = '[' ∧ t = .openBracket) ∨ (c = ']' ∧ t = .closeBracket) ∨ (c = ',' ∧ t = .comma) ∨
      (c = '*' ∧ t = .star) := by
  unfold punctuation? at h
  split at h <;> simp_all

/-- Blanks and punctuation occur in no word but at the head of punctuation, and in
    strings. -/
theorem stop_cases {c : Char} (h : isBlank c = true ∨ (punctuation? c).isSome = true) :
    isDecimalDigit c = false ∧ isNamePart c = false ∧ c ≠ '.' ∧ c ≠ 'e' ∧ c ≠ 'E' ∧ c ≠ '-' := by
  rcases h with h | h
  · simp only [isBlank, Bool.or_eq_true, decide_eq_true_eq] at h
    rcases h with (((rfl | rfl) | rfl) | rfl) | rfl <;> decide
  · obtain ⟨t, ht⟩ := Option.isSome_iff_exists.mp h
    rcases punctuation?_eq_some ht with ⟨rfl, -⟩ | ⟨rfl, -⟩ | ⟨rfl, -⟩ | ⟨rfl, -⟩ <;> decide

namespace Stops

variable {cs : List Char}

theorem notDigit (h : Stops cs) : NotAtHead isDecimalDigit cs :=
  fun c hc => (stop_cases (h c hc)).1

theorem notNamePart (h : Stops cs) : NotAtHead isNamePart cs :=
  fun c hc => (stop_cases (h c hc)).2.1

theorem head_ne (h : Stops cs) {c : Char} {rest : List Char} (hcs : cs = c :: rest) :
    c ≠ '.' ∧ c ≠ 'e' ∧ c ≠ 'E' := by
  have hstop := stop_cases (h c (by simp [hcs]))
  exact ⟨hstop.2.2.1, hstop.2.2.2.1, hstop.2.2.2.2.1⟩

end Stops

theorem takeWhile_append_exact {p : Char → Bool} {w rest : List Char}
    (hw : ∀ c ∈ w, p c = true) (hrest : NotAtHead p rest) :
    (w ++ rest).takeWhile p = w ∧ (w ++ rest).dropWhile p = rest := by
  rw [List.takeWhile_append_of_pos hw, List.dropWhile_append_of_pos hw]
  cases rest with
  | nil => simp
  | cons c rest =>
    have hc : p c = false := hrest c (by simp)
    simp [hc]

/-! ### Digits -/

theorem takeDigits?_sound {cs ds rest : List Char} (h : takeDigits? cs = some (ds, rest)) :
    cs = ds ++ rest ∧ ds ∈ digitRun := by
  unfold takeDigits? at h
  dsimp only at h
  split at h
  · cases h
  · next hne =>
    simp only [Option.some.injEq, Prod.mk.injEq] at h
    obtain ⟨rfl, rfl⟩ := h
    refine ⟨List.takeWhile_append_dropWhile.symm, mem_digitRun.mpr ⟨?_, ?_⟩⟩
    · simpa using hne
    · exact fun c hc => List.mem_takeWhile_imp hc

theorem takeDigits?_append {ds rest : List Char} (hds : ds ∈ digitRun)
    (hrest : NotAtHead isDecimalDigit rest) : takeDigits? (ds ++ rest) = some (ds, rest) := by
  rw [mem_digitRun] at hds
  obtain ⟨htake, hdrop⟩ := takeWhile_append_exact hds.2 hrest
  simp [takeDigits?, htake, hdrop, hds.1]

theorem takeDigits?_eq_none {cs : List Char} (h : NotAtHead isDecimalDigit cs) :
    takeDigits? cs = none := by
  cases cs with
  | nil => rfl
  | cons c cs =>
    have hc : isDecimalDigit c = false := h c (by simp)
    simp [takeDigits?, hc]

/-! ### Integers -/

theorem takeMinus_sound (cs : List Char) :
    cs = (takeMinus cs).1 ++ (takeMinus cs).2 ∧ (takeMinus cs).1 ∈ optional {['-']} := by
  unfold takeMinus
  split
  · exact ⟨rfl, mem_optional.mpr (Or.inl rfl)⟩
  · exact ⟨rfl, mem_optional.mpr (Or.inr rfl)⟩

theorem takeMinus_of_ne {c : Char} {cs : List Char} (h : c ≠ '-') :
    takeMinus (c :: cs) = ([], c :: cs) := by
  unfold takeMinus
  split
  · next heq => exact absurd (List.cons.inj heq).1 h
  · rfl

theorem isDecimalDigit_ne {c d : Char} (hc : isDecimalDigit c = true)
    (hd : isDecimalDigit d = false) : c ≠ d := by
  rintro rfl
  rw [hc] at hd
  cases hd

theorem takeMinus_append {m ds rest : List Char} (hm : m ∈ optional {['-']})
    (hds : ds ∈ digitRun) : takeMinus (m ++ (ds ++ rest)) = (m, ds ++ rest) := by
  rcases mem_optional.mp hm with rfl | rfl
  · rfl
  · obtain ⟨hne, hdigits⟩ := mem_digitRun.mp hds
    obtain ⟨d, ds, rfl⟩ := List.exists_cons_of_ne_nil hne
    exact takeMinus_of_ne (isDecimalDigit_ne (hdigits d (by simp)) (by decide))

theorem takeInteger?_sound {cs w rest : List Char} (h : takeInteger? cs = some (w, rest)) :
    cs = w ++ rest ∧ w ∈ integerLexemes := by
  obtain ⟨hcs, hm⟩ := takeMinus_sound cs
  simp only [takeInteger?, Option.map_eq_some_iff, Prod.mk.injEq, Prod.exists] at h
  obtain ⟨ds, rest', hds, rfl, rfl⟩ := h
  obtain ⟨hbody, hrun⟩ := takeDigits?_sound hds
  refine ⟨?_, Language.append_mem_mul hm hrun⟩
  rw [List.append_assoc, ← hbody]
  exact hcs

theorem takeInteger?_append {w rest : List Char} (hw : w ∈ integerLexemes)
    (hrest : NotAtHead isDecimalDigit rest) : takeInteger? (w ++ rest) = some (w, rest) := by
  obtain ⟨m, hm, ds, hds, rfl⟩ := Language.mem_mul.mp hw
  rw [takeInteger?, List.append_assoc, takeMinus_append hm hds]
  simp [takeDigits?_append hds hrest]

theorem takeInteger?_eq_none {c : Char} {cs : List Char} (hminus : c ≠ '-')
    (hc : isDecimalDigit c = false) : takeInteger? (c :: cs) = none := by
  rw [takeInteger?, takeMinus_of_ne hminus]
  have hnone : takeDigits? (c :: cs) = none :=
    takeDigits?_eq_none fun d hd => by simp_all
  simp [hnone]

/-! ### Floating-point numbers -/

theorem takeExponent?_sound {cs w rest : List Char} (h : takeExponent? cs = some (w, rest)) :
    cs = w ++ rest ∧ w ∈ exponentLexemes := by
  cases cs with
  | nil => cases h
  | cons e cs =>
    simp only [takeExponent?] at h
    split at h
    · next he =>
      have hletter : [e] ∈ charOf (fun c => c = 'e' || c = 'E') := ⟨e, by simpa using he, rfl⟩
      have hwords : ∀ sign ∈ optional (charOf fun c => c = '+' || c = '-'), ∀ body,
          (takeDigits? body).map (fun r => (e :: sign ++ r.1, r.2)) = some (w, rest) →
          e :: (sign ++ body) = w ++ rest ∧ w ∈ exponentLexemes := by
        intro sign hsign body hbody
        simp only [Option.map_eq_some_iff, Prod.mk.injEq, Prod.exists] at hbody
        obtain ⟨ds, rest', hds, rfl, rfl⟩ := hbody
        obtain ⟨rfl, hrun⟩ := takeDigits?_sound hds
        have hword : [e] ++ (sign ++ ds) ∈ exponentLexemes :=
          Language.append_mem_mul hletter (Language.append_mem_mul hsign hrun)
        exact ⟨by simp, by simpa using hword⟩
      split at h
      · exact hwords ['+'] (mem_optional.mpr (Or.inl ⟨'+', by decide, rfl⟩)) _ h
      · exact hwords ['-'] (mem_optional.mpr (Or.inl ⟨'-', by decide, rfl⟩)) _ h
      · exact hwords [] (mem_optional.mpr (Or.inr rfl)) _ h
    · cases h

theorem takeExponent?_append {w rest : List Char} (hw : w ∈ exponentLexemes)
    (hrest : NotAtHead isDecimalDigit rest) : takeExponent? (w ++ rest) = some (w, rest) := by
  obtain ⟨_, ⟨e, he, rfl⟩, _, htail, rfl⟩ := Language.mem_mul.mp hw
  obtain ⟨sign, hsign, ds, hds, rfl⟩ := Language.mem_mul.mp htail
  have hletter : e = 'e' ∨ e = 'E' := by simpa using he
  have hdigits := takeDigits?_append hds hrest
  rcases mem_optional.mp hsign with ⟨c, hc, rfl⟩ | rfl
  · have hc : c = '+' ∨ c = '-' := by simpa using hc
    rcases hc with rfl | rfl <;> simp [takeExponent?, hletter, hdigits]
  · obtain ⟨hne, hall⟩ := mem_digitRun.mp hds
    obtain ⟨d, ds, rfl⟩ := List.exists_cons_of_ne_nil hne
    have hd := hall d (by simp)
    have hplus : d ≠ '+' := isDecimalDigit_ne hd (by decide)
    have hminus : d ≠ '-' := isDecimalDigit_ne hd (by decide)
    simp only [List.cons_append, List.nil_append, takeExponent?, if_pos hletter]
    split
    · next heq => exact absurd (List.cons.inj heq).1 hplus
    · next heq => exact absurd (List.cons.inj heq).1 hminus
    · rw [← List.cons_append, hdigits]
      rfl

theorem takeExponent?_eq_none {cs : List Char} (h : ∀ c rest, cs = c :: rest → c ≠ 'e' ∧ c ≠ 'E') :
    takeExponent? cs = none := by
  cases cs with
  | nil => rfl
  | cons c cs =>
    have hc := h c cs rfl
    simp [takeExponent?, hc.1, hc.2]

theorem takeFloat?_sound {cs w rest : List Char} (h : takeFloat? cs = some (w, rest)) :
    cs = w ++ rest ∧ w ∈ floatLexemes := by
  unfold takeFloat? at h
  split at h
  · cases h
  · next whole rest₁ hwhole =>
    obtain ⟨rfl, hint⟩ := takeInteger?_sound hwhole
    split at h
    · cases h
    · next ds rest₂ hds =>
      obtain ⟨rfl, hrun⟩ := takeDigits?_sound hds
      have hfraction : ∀ ex ∈ optional exponentLexemes,
          whole ++ ('.' :: (ds ++ ex)) ∈ floatLexemes := fun ex hex =>
        Or.inl (Language.append_mem_mul hint
          (Language.append_mem_mul (mem_singleton_word.mpr rfl)
            (Language.append_mem_mul hrun hex)))
      split at h
      · simp only [Option.some.injEq, Prod.mk.injEq] at h
        obtain ⟨rfl, rfl⟩ := h
        have hword := hfraction [] (mem_optional.mpr (Or.inr rfl))
        exact ⟨by simp, by simpa using hword⟩
      · next ex rest₃ hex =>
        obtain ⟨rfl, hexp⟩ := takeExponent?_sound hex
        simp only [Option.some.injEq, Prod.mk.injEq] at h
        obtain ⟨rfl, rfl⟩ := h
        have hword := hfraction ex (mem_optional.mpr (Or.inl hexp))
        exact ⟨by simp, by simpa using hword⟩
  · next whole rest₁ _ hwhole =>
    obtain ⟨rfl, hint⟩ := takeInteger?_sound hwhole
    simp only [Option.map_eq_some_iff, Prod.mk.injEq, Prod.exists] at h
    obtain ⟨ex, rest₂, hex, rfl, rfl⟩ := h
    obtain ⟨rfl, hexp⟩ := takeExponent?_sound hex
    exact ⟨by simp, Or.inr (Language.append_mem_mul hint hexp)⟩

/-- The letter that an exponent starts with. -/
theorem exponentLexemes_head {w : List Char} (hw : w ∈ exponentLexemes) :
    ∃ e cs, w = e :: cs ∧ (e = 'e' ∨ e = 'E') := by
  obtain ⟨_, ⟨e, he, rfl⟩, cs, -, rfl⟩ := Language.mem_mul.mp hw
  exact ⟨e, cs, rfl, by simpa using he⟩

theorem exponentLexemes_notDigit {ex : List Char} (hex : ex ∈ exponentLexemes)
    (rest : List Char) : NotAtHead isDecimalDigit (ex ++ rest) := by
  obtain ⟨e, cs, rfl, he⟩ := exponentLexemes_head hex
  intro c hc
  simp only [List.cons_append, List.head?_cons, Option.mem_some_iff] at hc
  subst hc
  rcases he with rfl | rfl <;> decide

/-- A fraction is taken whole, with the exponent behind it if there is one. -/
theorem takeFloat?_fraction {whole ds ex rest : List Char} (hwhole : whole ∈ integerLexemes)
    (hds : ds ∈ digitRun) (hex : ex ∈ optional exponentLexemes) (hrest : Stops rest) :
    takeFloat? (whole ++ '.' :: (ds ++ (ex ++ rest))) = some (whole ++ '.' :: (ds ++ ex), rest) := by
  have hpoint : NotAtHead isDecimalDigit ('.' :: (ds ++ (ex ++ rest))) := by
    intro c hc
    simp only [List.head?_cons, Option.mem_some_iff] at hc
    subst hc
    decide
  have hint := takeInteger?_append hwhole hpoint
  rcases mem_optional.mp hex with hex | rfl
  · have hdigits := takeDigits?_append hds (exponentLexemes_notDigit hex rest)
    simp only [takeFloat?, hint, hdigits, takeExponent?_append hex hrest.notDigit]
    simp
  · have hnone : takeExponent? rest = none :=
      takeExponent?_eq_none fun c cs hcs => (hrest.head_ne hcs).2
    have hdigits := takeDigits?_append hds hrest.notDigit
    simp only [List.nil_append] at hint ⊢
    simp only [takeFloat?, hint, hdigits, hnone]
    simp

/-- An exponent behind an integer is taken with it. -/
theorem takeFloat?_exponent {whole ex rest : List Char} (hwhole : whole ∈ integerLexemes)
    (hex : ex ∈ exponentLexemes) (hrest : Stops rest) :
    takeFloat? (whole ++ (ex ++ rest)) = some (whole ++ ex, rest) := by
  have hexp := takeExponent?_append hex hrest.notDigit
  have hint := takeInteger?_append hwhole (exponentLexemes_notDigit hex rest)
  obtain ⟨e, cs, rfl, he⟩ := exponentLexemes_head hex
  have hpoint : e ≠ '.' := by rcases he with rfl | rfl <;> decide
  unfold takeFloat?
  split
  · next heq => rw [hint] at heq; cases heq
  · next heq =>
    -- the integer would have to end before a point
    rw [hint] at heq
    simp only [List.cons_append, Option.some.injEq, Prod.mk.injEq, List.cons.injEq] at heq
    exact absurd heq.2.1 hpoint
  · next whole' rest' _ heq =>
    rw [hint] at heq
    simp only [Option.some.injEq, Prod.mk.injEq] at heq
    obtain ⟨rfl, rfl⟩ := heq
    rw [hexp]
    rfl

theorem takeFloat?_append {w rest : List Char} (hw : w ∈ floatLexemes) (hrest : Stops rest) :
    takeFloat? (w ++ rest) = some (w, rest) := by
  rcases (Language.mem_add _ _ _).mp hw with hw | hw
  · obtain ⟨whole, hwhole, _, hfraction, rfl⟩ := Language.mem_mul.mp hw
    obtain ⟨point, hpoint, _, hdecimals, rfl⟩ := Language.mem_mul.mp hfraction
    obtain ⟨ds, hds, ex, hex, rfl⟩ := Language.mem_mul.mp hdecimals
    obtain rfl := mem_singleton_word.mp hpoint
    have htake := takeFloat?_fraction hwhole hds hex hrest
    simpa using htake
  · obtain ⟨whole, hwhole, ex, hex, rfl⟩ := Language.mem_mul.mp hw
    rw [List.append_assoc]
    exact takeFloat?_exponent hwhole hex hrest

/-- An integer that ends where it should is not the beginning of a floating-point
    number. -/
theorem takeFloat?_integer {w rest : List Char} (hw : w ∈ integerLexemes) (hrest : Stops rest) :
    takeFloat? (w ++ rest) = none := by
  have hint := takeInteger?_append hw hrest.notDigit
  have hnone : takeExponent? rest = none :=
    takeExponent?_eq_none fun c cs hcs => (hrest.head_ne hcs).2
  unfold takeFloat?
  split
  · rfl
  · next heq =>
    rw [hint] at heq
    simp only [Option.some.injEq, Prod.mk.injEq] at heq
    exact absurd rfl (hrest.head_ne heq.2).1
  · next whole' rest' _ heq =>
    rw [hint] at heq
    simp only [Option.some.injEq, Prod.mk.injEq] at heq
    obtain ⟨rfl, rfl⟩ := heq
    rw [hnone]
    rfl

/-! ### Names -/

theorem isNameStart_ne {c d : Char} (hc : isNameStart c = true) (hd : isNameStart d = false) :
    c ≠ d := by
  rintro rfl
  rw [hc] at hd
  cases hd

theorem isDecimalDigit_of_isNameStart {c : Char} (hc : isNameStart c = true) :
    isDecimalDigit c = false := by
  have hc : (c.val ≥ 'a'.val && c.val ≤ 'z'.val || c = '_') = true := hc
  simp only [Bool.or_eq_true, Bool.and_eq_true, decide_eq_true_eq] at hc
  have hrange : 95 ≤ c.toNat ∧ c.toNat ≤ 122 := by
    rcases hc with ⟨hlow, hhigh⟩ | rfl
    · have hlow : 97 ≤ c.toNat := UInt32.le_iff_toNat_le.mp hlow
      have hhigh : c.toNat ≤ 122 := UInt32.le_iff_toNat_le.mp hhigh
      omega
    · decide
  have hvalue : digitValue? c.toNat = none := by
    rw [digitValue?, if_pos (by omega), if_neg (by omega)]
  rw [isDecimalDigit, hvalue]
  rfl

theorem takeName?_sound {cs w rest : List Char} (h : takeName? cs = some (w, rest)) :
    cs = w ++ rest ∧ w ∈ nameLexemes := by
  cases cs with
  | nil => cases h
  | cons c cs =>
    simp only [takeName?] at h
    split at h
    · next hc =>
      simp only [Option.some.injEq, Prod.mk.injEq] at h
      obtain ⟨rfl, rfl⟩ := h
      refine ⟨by simp, ?_⟩
      have hparts : cs.takeWhile isNamePart ∈ (charOf isNamePart)∗ :=
        mem_star_charOf.mpr fun d hd => List.mem_takeWhile_imp hd
      exact Language.append_mem_mul (show [c] ∈ charOf isNameStart from ⟨c, hc, rfl⟩) hparts
    · cases h

theorem takeName?_append {w rest : List Char} (hw : w ∈ nameLexemes)
    (hrest : NotAtHead isNamePart rest) : takeName? (w ++ rest) = some (w, rest) := by
  obtain ⟨_, ⟨c, hc, rfl⟩, cs, hcs, rfl⟩ := Language.mem_mul.mp hw
  obtain ⟨htake, hdrop⟩ := takeWhile_append_exact (mem_star_charOf.mp hcs) hrest
  simp [takeName?, hc, htake, hdrop]

/-! ### Strings -/

theorem append_mem_star_mul {l m : Language Char} {u w : List Char} (hu : u ∈ l)
    (hw : w ∈ l∗ * m) : u ++ w ∈ l∗ * m := by
  obtain ⟨body, hbody, tail, htail, rfl⟩ := Language.mem_mul.mp hw
  obtain ⟨us, rfl, hus⟩ := Language.mem_kstar.mp hbody
  have hstar : (u :: us).flatten ∈ l∗ := Language.join_mem_kstar fun v hv => by
    rcases List.mem_cons.mp hv with rfl | hv
    · exact hu
    · exact hus v hv
  rw [← List.append_assoc, ← List.flatten_cons]
  exact Language.append_mem_mul hstar htail

theorem takeStringRest?_sound {q : Char} {cs w rest : List Char}
    (h : takeStringRest? q cs = some (w, rest)) :
    cs = w ++ rest ∧ w ∈ (stringUnit q)∗ * {[q]} := by
  -- the fourth and the fifth case are a quote and a backslash that ends the text
  induction cs using takeStringRest?.induct q generalizing w with
  | case1 => cases h
  | case2 cs => simp [takeStringRest?] at h
  | case3 c cs hc ih =>
    simp only [takeStringRest?, if_neg hc, Option.map_eq_some_iff, Prod.mk.injEq,
      Prod.exists] at h
    obtain ⟨w', rest', hw', rfl, rfl⟩ := h
    obtain ⟨rfl, hmem⟩ := ih hw'
    have hunit : ['\\'] ++ [c] ∈ stringUnit q :=
      Or.inr (Language.append_mem_mul (mem_singleton_word.mpr rfl) ⟨c, by simpa using hc, rfl⟩)
    exact ⟨rfl, append_mem_star_mul hunit hmem⟩
  | case4 cs hescape =>
    rw [takeStringRest?, if_pos rfl, Option.some.injEq, Prod.mk.injEq] at h
    · obtain ⟨rfl, rfl⟩ := h
      have hquote : [] ++ [q] ∈ (stringUnit q)∗ * {[q]} :=
        Language.append_mem_mul (Language.nil_mem_kstar _) (mem_singleton_word.mpr rfl)
      exact ⟨rfl, hquote⟩
    · exact hescape
  | case5 cs hescape hq =>
    rw [takeStringRest?, if_neg hq, if_pos rfl] at h
    · cases h
    · exact hescape
  | case6 c cs hescape hq hbackslash ih =>
    rw [takeStringRest?, if_neg hq, if_neg hbackslash] at h
    · simp only [Option.map_eq_some_iff, Prod.mk.injEq, Prod.exists] at h
      obtain ⟨w', rest', hw', rfl, rfl⟩ := h
      obtain ⟨rfl, hmem⟩ := ih hw'
      have hunit : [c] ∈ stringUnit q := Or.inl ⟨c, by simp [hq, hbackslash], rfl⟩
      exact ⟨rfl, append_mem_star_mul hunit hmem⟩
    · exact hescape

theorem takeStringRest?_append {q : Char} (hq : q ≠ '\\') {w rest : List Char}
    (hw : w ∈ (stringUnit q)∗ * {[q]}) : takeStringRest? q (w ++ rest) = some (w, rest) := by
  obtain ⟨body, hbody, quote, hquote, rfl⟩ := Language.mem_mul.mp hw
  obtain ⟨us, rfl, hus⟩ := Language.mem_kstar.mp hbody
  obtain rfl := mem_singleton_word.mp hquote
  clear hw hbody hquote
  -- the units are taken one by one, each by the branch that its class allows
  induction us with
  | nil =>
    simp only [List.flatten_nil, List.nil_append, List.cons_append]
    rw [takeStringRest?, if_pos rfl]
    intro c cs heq
    exact absurd heq hq
  | cons u us ih =>
    have ih := ih fun v hv => hus v (List.mem_cons_of_mem u hv)
    rcases (Language.mem_add _ _ _).mp (hus u (by simp)) with ⟨c, hc, rfl⟩ | hu
    · simp only [decide_eq_true_eq, Bool.and_eq_true, ne_eq] at hc
      simp only [List.flatten_cons, List.cons_append, List.nil_append]
      rw [takeStringRest?, if_neg hc.1, if_neg hc.2, ih]
      · rfl
      · intro d ds heq
        exact absurd heq hc.2
    · obtain ⟨backslash, hbackslash, _, ⟨c, hc, rfl⟩, rfl⟩ := Language.mem_mul.mp hu
      obtain rfl := mem_singleton_word.mp hbackslash
      have hc : ¬ c = '\n' := by simpa using hc
      simp only [List.flatten_cons, List.cons_append, List.nil_append]
      rw [takeStringRest?, if_neg hc, ih]
      rfl

theorem takeString?_sound {cs w rest : List Char} (h : takeString? cs = some (w, rest)) :
    cs = w ++ rest ∧ w ∈ Terminal.string.lexemes := by
  cases cs with
  | nil => cases h
  | cons q cs =>
    simp only [takeString?] at h
    split at h
    · next hq =>
      simp only [Option.map_eq_some_iff, Prod.mk.injEq, Prod.exists] at h
      obtain ⟨w', rest', hw', rfl, rfl⟩ := h
      obtain ⟨rfl, hmem⟩ := takeStringRest?_sound hw'
      have hword : [q] ++ w' ∈ stringLexemes q :=
        Language.append_mem_mul (mem_singleton_word.mpr rfl) hmem
      refine ⟨rfl, ?_⟩
      rcases hq with rfl | rfl
      · exact Or.inl hword
      · exact Or.inr hword
    · cases h

theorem takeString?_append {w : List Char} (hw : w ∈ Terminal.string.lexemes) (rest : List Char) :
    takeString? (w ++ rest) = some (w, rest) := by
  have hquoted : ∀ q, (q = '"' ∨ q = '\'') → w ∈ stringLexemes q →
      takeString? (w ++ rest) = some (w, rest) := by
    intro q hq hw
    obtain ⟨quote, hquote, body, hbody, rfl⟩ := Language.mem_mul.mp hw
    obtain rfl := mem_singleton_word.mp hquote
    have hne : q ≠ '\\' := by rcases hq with rfl | rfl <;> decide
    have hrest : takeStringRest? q (body ++ rest) = some (body, rest) :=
      takeStringRest?_append hne hbody
    simp [takeString?, hq, hrest]
  rcases (Language.mem_add _ _ _).mp hw with hw | hw
  · exact hquoted '"' (Or.inl rfl) hw
  · exact hquoted '\'' (Or.inr rfl) hw

/-! ### Tokens -/

theorem integerLexemes_head {w : List Char} (hw : w ∈ integerLexemes) :
    ∃ c cs, w = c :: cs ∧ (c = '-' ∨ isDecimalDigit c = true) := by
  obtain ⟨m, hm, ds, hds, rfl⟩ := Language.mem_mul.mp hw
  rcases mem_optional.mp hm with rfl | rfl
  · exact ⟨'-', ds, rfl, Or.inl rfl⟩
  · obtain ⟨hne, hall⟩ := mem_digitRun.mp hds
    obtain ⟨d, ds, rfl⟩ := List.exists_cons_of_ne_nil hne
    exact ⟨d, ds, rfl, Or.inr (hall d (by simp))⟩

/-- A number with a point or an exponent begins with an integer. -/
theorem exists_integer_of_float {w : List Char} (hw : w ∈ floatLexemes) :
    ∃ a ∈ integerLexemes, ∃ b, a ++ b = w := by
  rcases (Language.mem_add _ _ _).mp hw with hw | hw
  · obtain ⟨a, ha, b, -, hab⟩ := Language.mem_mul.mp hw
    exact ⟨a, ha, b, hab⟩
  · obtain ⟨a, ha, b, -, hab⟩ := Language.mem_mul.mp hw
    exact ⟨a, ha, b, hab⟩

theorem floatLexemes_head {w : List Char} (hw : w ∈ floatLexemes) :
    ∃ c cs, w = c :: cs ∧ (c = '-' ∨ isDecimalDigit c = true) := by
  obtain ⟨a, ha, b, rfl⟩ := exists_integer_of_float hw
  obtain ⟨c, cs, rfl, hc⟩ := integerLexemes_head ha
  exact ⟨c, cs ++ b, rfl, hc⟩

theorem nameLexemes_head {w : List Char} (hw : w ∈ nameLexemes) :
    ∃ c cs, w = c :: cs ∧ isNameStart c = true := by
  obtain ⟨_, ⟨c, hc, rfl⟩, cs, -, rfl⟩ := Language.mem_mul.mp hw
  exact ⟨c, cs, rfl, hc⟩

theorem stringLexemes_head {w : List Char} (hw : w ∈ Terminal.string.lexemes) :
    ∃ c cs, w = c :: cs ∧ (c = '"' ∨ c = '\'') := by
  rcases (Language.mem_add _ _ _).mp hw with hw | hw
  · obtain ⟨quote, hquote, body, -, rfl⟩ := Language.mem_mul.mp hw
    obtain rfl := mem_singleton_word.mp hquote
    exact ⟨'"', body, rfl, Or.inl rfl⟩
  · obtain ⟨quote, hquote, body, -, rfl⟩ := Language.mem_mul.mp hw
    obtain rfl := mem_singleton_word.mp hquote
    exact ⟨'\'', body, rfl, Or.inr rfl⟩

theorem isNamePart_of_isNameStart {c : Char} (h : isNameStart c = true) :
    isNamePart c = true := by
  simp only [isNameStart, Bool.or_eq_true] at h
  change (c.isUpper || c.isLower || c.isDigit || c = '_') = true
  simp only [Bool.or_eq_true]
  rcases h with h | h
  · exact Or.inl (Or.inl (Or.inr h))
  · exact Or.inr h

/-- No character a word may start with is punctuation or a blank. -/
theorem head_not_stop {c : Char}
    (hc : c = '-' ∨ isDecimalDigit c = true ∨ isNamePart c = true ∨ c = '"' ∨ c = '\'') :
    punctuation? c = none ∧ isBlank c = false := by
  by_contra hstop
  have hstop : isBlank c = true ∨ (punctuation? c).isSome = true := by
    by_contra hnone
    simp only [not_or, Bool.not_eq_true, Option.isSome_eq_false_iff, Option.isNone_iff_eq_none]
      at hnone
    exact hstop ⟨hnone.2, hnone.1⟩
  obtain ⟨hdigit, hpart, -, -, -, hminus⟩ := stop_cases hstop
  rcases hc with rfl | hc | hc | rfl | rfl
  · exact hminus rfl
  · rw [hdigit] at hc
    cases hc
  · rw [hpart] at hc
    cases hc
  · revert hstop
    decide
  · revert hstop
    decide

/-- The first character of a word that is not punctuation is neither punctuation nor
    a blank. -/
theorem head_of_word {t : Terminal} {w : List Char} (hw : w ∈ t.lexemes)
    (ht : t.isPunctuation = false) :
    ∃ c cs, w = c :: cs ∧ punctuation? c = none ∧ isBlank c = false := by
  cases t with
  | openBracket | closeBracket | comma | star => cases ht
  | float =>
    obtain ⟨c, cs, rfl, hminus | hdigit⟩ := floatLexemes_head hw
    · exact ⟨c, cs, rfl, head_not_stop (Or.inl hminus)⟩
    · exact ⟨c, cs, rfl, head_not_stop (Or.inr (Or.inl hdigit))⟩
  | integer =>
    obtain ⟨c, cs, rfl, hminus | hdigit⟩ := integerLexemes_head hw
    · exact ⟨c, cs, rfl, head_not_stop (Or.inl hminus)⟩
    · exact ⟨c, cs, rfl, head_not_stop (Or.inr (Or.inl hdigit))⟩
  | name =>
    obtain ⟨c, cs, rfl, hstart⟩ := nameLexemes_head hw
    have hpart : isNamePart c = true := isNamePart_of_isNameStart hstart
    exact ⟨c, cs, rfl, head_not_stop (Or.inr (Or.inr (Or.inl hpart)))⟩
  | string =>
    obtain ⟨c, cs, rfl, hquote⟩ := stringLexemes_head hw
    exact ⟨c, cs, rfl, head_not_stop (Or.inr (Or.inr (Or.inr hquote)))⟩

/-- A token that is taken is a word of its terminal. -/
theorem takeLexeme?_sound {cs w rest : List Char} {t : Terminal}
    (h : takeLexeme? cs = some (t, w, rest)) : cs = w ++ rest ∧ w ∈ t.lexemes := by
  cases cs with
  | nil => cases h
  | cons c cs =>
    simp only [takeLexeme?] at h
    split at h
    · next t' hpunctuation =>
      simp only [Option.some.injEq, Prod.mk.injEq] at h
      obtain ⟨rfl, rfl, rfl⟩ := h
      rcases punctuation?_eq_some hpunctuation with
        ⟨rfl, rfl⟩ | ⟨rfl, rfl⟩ | ⟨rfl, rfl⟩ | ⟨rfl, rfl⟩ <;> exact ⟨rfl, rfl⟩
    · split at h
      · next r hfloat =>
        simp only [Option.some.injEq, Prod.mk.injEq] at h
        obtain ⟨rfl, rfl⟩ := h
        exact takeFloat?_sound hfloat
      · next r _ hinteger =>
        simp only [Option.some.injEq, Prod.mk.injEq] at h
        obtain ⟨rfl, rfl⟩ := h
        exact takeInteger?_sound hinteger
      · next r _ _ hname =>
        simp only [Option.some.injEq, Prod.mk.injEq] at h
        obtain ⟨rfl, rfl⟩ := h
        exact takeName?_sound hname
      · next r _ _ _ hstring =>
        simp only [Option.some.injEq, Prod.mk.injEq] at h
        obtain ⟨rfl, rfl⟩ := h
        exact takeString?_sound hstring
      · cases h

/-- A word is taken whole, and as what it is, where it ends as tokens do. Punctuation
    ends anywhere. -/
theorem takeLexeme?_append {t : Terminal} {w rest : List Char} (hw : w ∈ t.lexemes)
    (hrest : t.isPunctuation = true ∨ Stops rest) :
    takeLexeme? (w ++ rest) = some (t, w, rest) := by
  cases ht : t.isPunctuation with
  | true =>
    cases t with
    | openBracket | closeBracket | comma | star =>
      obtain rfl := mem_singleton_word.mp hw
      rfl
    | float | integer | name | string => cases ht
  | false =>
    have hstops : Stops rest := by
      rcases hrest with h | h
      · rw [ht] at h
        cases h
      · exact h
    obtain ⟨c, cs, rfl, hpunctuation, -⟩ := head_of_word hw ht
    simp only [List.cons_append, takeLexeme?, hpunctuation]
    simp only [← List.cons_append]
    cases t with
    | openBracket | closeBracket | comma | star => cases ht
    | float => rw [takeFloat?_append hw hstops]
    | integer => rw [takeFloat?_integer hw hstops, takeInteger?_append hw hstops.notDigit]
    | name =>
      obtain ⟨d, ds, heq, hd⟩ := nameLexemes_head hw
      simp only [List.cons.injEq] at heq
      obtain ⟨rfl, rfl⟩ := heq
      have hint : takeInteger? (c :: cs ++ rest) = none :=
        takeInteger?_eq_none (isNameStart_ne hd (by decide)) (isDecimalDigit_of_isNameStart hd)
      have hfloat : takeFloat? (c :: cs ++ rest) = none := by simp only [takeFloat?, hint]
      rw [hfloat, hint, takeName?_append hw hstops.notNamePart]
    | string =>
      obtain ⟨d, ds, heq, hd⟩ := stringLexemes_head hw
      simp only [List.cons.injEq] at heq
      obtain ⟨rfl, rfl⟩ := heq
      have hint : takeInteger? (c :: cs ++ rest) = none := by
        rcases hd with rfl | rfl <;> exact takeInteger?_eq_none (by decide) (by decide)
      have hfloat : takeFloat? (c :: cs ++ rest) = none := by simp only [takeFloat?, hint]
      have hname : takeName? (c :: cs ++ rest) = none := by
        rcases hd with rfl | rfl <;> rfl
      rw [hfloat, hint, hname, takeString?_append hw]

/-! ### Characters of numbers -/

/-- The characters that numbers are written with, digits apart. -/
def numberMarks : List Char := ['-', '+', '.', 'e', 'E']

/-- Every character of a word of the language is a digit or one of the marks of a
    number. -/
def Numeric (l : Language Char) : Prop :=
  ∀ w ∈ l, ∀ c ∈ w, isDecimalDigit c = true ∨ c ∈ numberMarks

namespace Numeric

variable {l m : Language Char}

theorem mul (hl : Numeric l) (hm : Numeric m) : Numeric (l * m) := by
  intro w hw c hc
  obtain ⟨u, hu, v, hv, rfl⟩ := Language.mem_mul.mp hw
  rcases List.mem_append.mp hc with hc | hc
  · exact hl u hu c hc
  · exact hm v hv c hc

theorem optional (hl : Numeric l) : Numeric (Destructure.optional l) := by
  intro w hw c hc
  rcases mem_optional.mp hw with hw | rfl
  · exact hl w hw c hc
  · cases hc

theorem charOf {p : Char → Bool} (hp : ∀ c, p c = true → c ∈ numberMarks) :
    Numeric (Destructure.charOf p) := by
  rintro _ ⟨d, hd, rfl⟩ c hc
  rw [List.mem_singleton.mp hc]
  exact Or.inr (hp d hd)

theorem singleton {d : Char} (hd : d ∈ numberMarks) : Numeric ({[d]} : Language Char) := by
  intro w hw c hc
  rw [mem_singleton_word.mp hw, List.mem_singleton] at hc
  rw [hc]
  exact Or.inr hd

theorem digits : Numeric digitRun :=
  fun _ hw c hc => Or.inl ((mem_digitRun.mp hw).2 c hc)

theorem integer : Numeric integerLexemes := (singleton (by decide)).optional.mul digits

theorem exponent : Numeric exponentLexemes := by
  refine (charOf ?_).mul ((charOf ?_).optional.mul digits)
  · intro c hc
    simp only [Bool.or_eq_true, decide_eq_true_eq] at hc
    rcases hc with rfl | rfl <;> decide
  · intro c hc
    simp only [Bool.or_eq_true, decide_eq_true_eq] at hc
    rcases hc with rfl | rfl <;> decide

theorem float : Numeric floatLexemes := by
  intro w hw
  rcases (Language.mem_add _ _ w).mp hw with hw | hw
  · exact integer.mul ((singleton (by decide)).mul (digits.mul exponent.optional)) w hw
  · exact integer.mul exponent w hw

end Numeric

/-! ### Characters that start no token -/

/-- Behind the beginning of an integer there is an integer to be taken, if perhaps a
    longer one. -/
theorem takeInteger?_ne_none {w : List Char} (hw : w ∈ integerLexemes) (rest : List Char) :
    takeInteger? (w ++ rest) ≠ none := by
  obtain ⟨m, hm, ds, hds, rfl⟩ := Language.mem_mul.mp hw
  rw [takeInteger?, List.append_assoc, takeMinus_append hm hds]
  obtain ⟨hne, hdigits⟩ := mem_digitRun.mp hds
  obtain ⟨d, ds, rfl⟩ := List.exists_cons_of_ne_nil hne
  have hd : isDecimalDigit d = true := hdigits d (by simp)
  simp [takeDigits?, hd]

theorem takeLexeme?_eq_none_inv {c : Char} {cs : List Char} (h : takeLexeme? (c :: cs) = none) :
    punctuation? c = none ∧ takeInteger? (c :: cs) = none ∧ takeName? (c :: cs) = none ∧
      takeString? (c :: cs) = none := by
  simp only [takeLexeme?] at h
  split at h
  · cases h
  · next hpunctuation =>
    split at h
    · cases h
    · cases h
    · cases h
    · cases h
    · next _ hinteger hname hstring => exact ⟨hpunctuation, hinteger, hname, hstring⟩

/-- Where no token is taken, no word of any terminal begins. -/
theorem not_mem_lexemes_of_takeLexeme? {w rest : List Char} (h : takeLexeme? (w ++ rest) = none)
    (t : Terminal) : w ∉ t.lexemes := by
  intro hw
  cases ht : t.isPunctuation with
  | true =>
    rw [takeLexeme?_append hw (Or.inl ht)] at h
    cases h
  | false =>
    obtain ⟨c, cs, rfl, -⟩ := head_of_word hw ht
    rw [List.cons_append] at h
    obtain ⟨-, hinteger, hname, hstring⟩ := takeLexeme?_eq_none_inv h
    rw [← List.cons_append] at hinteger hname hstring
    cases t with
    | openBracket | closeBracket | comma | star => cases ht
    | float =>
      obtain ⟨a, ha, b, hab⟩ := exists_integer_of_float hw
      rw [← hab, List.append_assoc] at hinteger
      exact takeInteger?_ne_none ha (b ++ rest) hinteger
    | integer => exact takeInteger?_ne_none hw rest hinteger
    | name =>
      obtain ⟨d, ds, heq, hd⟩ := nameLexemes_head hw
      simp only [List.cons.injEq] at heq
      obtain ⟨rfl, rfl⟩ := heq
      simp [takeName?, hd] at hname
    | string =>
      rw [takeString?_append hw] at hstring
      cases hstring

end Destructure
