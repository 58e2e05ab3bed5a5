/-
  Destructure/Proofs/Compile/Literals.lean
  ========================================
  **Patterns of one literal** — a text that is a word of a terminal of literals is one
  token, whatever could be cut off its front, and is read as the literal that is written
  with it (`Lexeme.parse_text`). So what strings and numbers stand for is settled by their
  values: a string in quotes matches the text that is written in it and nothing else, and
  an integer matches the number that its digits write.
-/
import Mathlib
import Destructure.Proofs.Compile.Compilation
import Destructure.Proofs.Pattern.Conversion
import Destructure.Proofs.Pattern.Reading

namespace Destructure

/-! ### Words of a terminal -/

/-- A text that is read as a literal compiles to the matcher of the literal. -/
theorem compilePattern_literal (source : String) (e : Extent) {l : Lexeme} (v : Literal)
    (hform : readForm source.toList = .ok (.literal e l)) (hvalue : l.value = .ok v) :
    compilePattern source =
      .ok ⟨source, .literal v (some (e.within source)), [], some (.literal e v)⟩ := by
  refine (compilePattern_eq_ok_iff source _).mpr ⟨.literal e v, _, ?_, rfl, rfl, rfl⟩
  rw [Pattern.parse, hform, ok_bind, Pattern.traverse, Lexeme.valueAt, hvalue]
  rfl

section Words

variable {l : Lexeme}

/-- No part of a word is cut off alone: it is one token. -/
theorem Lexeme.tokensOf_text (hl : l.text ∈ l.kind.terminal.lexemes) :
    tokensOf l.text = ⟨[⟨l.kind.terminal, 0, l.text⟩], none⟩ := by
  have hnone : Blanks [] := fun c hc => by cases hc
  have hlaid : Laid 0 [⟨l.kind.terminal, 0, l.text⟩] l.text := by
    have h : Laid 0 [⟨l.kind.terminal, 0, l.text⟩] ([] ++ (l.text ++ [])) :=
      .cons hnone rfl (.nil _)
    rwa [List.nil_append, List.append_nil] at h
  have hspelled : ∀ t ∈ [(⟨l.kind.terminal, 0, l.text⟩ : Token)], Spelled t.word := by
    intro t ht
    rw [List.mem_singleton.mp ht]
    exact hl
  have hlength : (l.text ++ []).length < l.text.length + 1 := by
    rw [List.append_nil]
    exact Nat.lt_succ_self _
  have htokens := tokensFrom_of_laid hlaid hnone hspelled (.singleton _) hlength
  rwa [List.append_nil] at htokens

theorem Lexeme.readForm_text (hl : l.text ∈ l.kind.terminal.lexemes) :
    readForm l.text = .ok (.literal ⟨0, l.text.length⟩ l) := by
  have hderives : Pattern.Derives (.literal ⟨0, 0 + l.text.length⟩ l)
      [⟨l.kind.terminal, 0, l.text⟩] := .literal (t := ⟨l.kind.terminal, 0, l.text⟩) rfl
  rw [Nat.zero_add] at hderives
  exact readForm_of_derives (tokensOf_text hl) hderives

theorem Lexeme.parse_text (hl : l.text ∈ l.kind.terminal.lexemes) :
    Pattern.parse (String.ofList l.text) =
      (l.valueAt ⟨0, l.text.length⟩).map (.literal ⟨0, l.text.length⟩) := by
  rw [Pattern.parse, String.toList_ofList, readForm_text hl, ok_bind, Pattern.traverse]
  cases l.valueAt ⟨0, l.text.length⟩ <;> rfl

theorem Lexeme.parse_of_value (hl : l.text ∈ l.kind.terminal.lexemes) {v : Literal}
    (hv : l.value = .ok v) :
    Pattern.parse (String.ofList l.text) = .ok (.literal ⟨0, l.text.length⟩ v) := by
  rw [parse_text hl, valueAt, hv]
  rfl

theorem Lexeme.parse_of_fault (hl : l.text ∈ l.kind.terminal.lexemes) {fault : LiteralFault}
    (hfault : l.value = .error fault) :
    Pattern.parse (String.ofList l.text) = .error (.invalidLiteral ⟨0, l.text.length⟩ fault) := by
  rw [parse_text hl, valueAt, hfault]
  rfl

/-- A word with a value compiles to the matcher of its value. -/
theorem Lexeme.compilePattern_text (hl : l.text ∈ l.kind.terminal.lexemes) {v : Literal}
    (hv : l.value = .ok v) :
    compilePattern (String.ofList l.text) =
      .ok ⟨String.ofList l.text, .literal v (some ⟨String.ofList l.text, 0, l.text.length⟩), [],
        some (.literal ⟨0, l.text.length⟩ v)⟩ := by
  have hform : readForm (String.ofList l.text).toList = .ok (.literal ⟨0, l.text.length⟩ l) := by
    rw [String.toList_ofList]
    exact readForm_text hl
  exact compilePattern_literal _ _ v hform hv

end Words

/-! ### Strings -/

theorem Writes.parse {cs : List Char} {s : String} (h : Writes cs s) :
    Pattern.parse (String.ofList cs) = .ok (.literal ⟨0, cs.length⟩ (.text s)) :=
  Lexeme.parse_of_value (l := ⟨.string, cs⟩) h.mem_lexemes h.readString

/-- A text in quotes is one token, is read as the text, and matches that and nothing else.
    Each string is read as the one text that is written in it or refused as an invalid
    literal, and it is refused exactly if an escape in it stands for no character. -/
theorem strings_read_as_written :
    (∀ cs s, Writes cs s →
      tokensOf cs = ⟨[⟨.string, 0, cs⟩], none⟩ ∧
      Pattern.parse (String.ofList cs) = .ok (.literal ⟨0, cs.length⟩ (.text s)) ∧
      ∃ c, compilePattern (String.ofList cs) = .ok c ∧
        ∀ v, c.definedAt v = .ok (decide (v.text? = some (Text.ofString s)))) ∧
    ∀ cs ∈ Terminal.string.lexemes,
      ((∃ s, (∀ t, Writes cs t ↔ t = s) ∧
          Pattern.parse (String.ofList cs) = .ok (.literal ⟨0, cs.length⟩ (.text s))) ∨
        ∃ e, HasUnknownEscape e cs ∧ Pattern.parse (String.ofList cs) =
          .error (.invalidLiteral ⟨0, cs.length⟩ (.unknownEscape e))) ∧
      ((∃ fault, Pattern.parse (String.ofList cs) = .error fault) ↔
        ∃ e, HasUnknownEscape e cs) := by
  refine ⟨?_, ?_⟩
  · intro cs s h
    have hcompiled := Lexeme.compilePattern_text (l := ⟨.string, cs⟩) h.mem_lexemes h.readString
    refine ⟨Lexeme.tokensOf_text (l := ⟨.string, cs⟩) h.mem_lexemes, h.parse, _, hcompiled, ?_⟩
    intro v
    rw [CompiledPattern.definedAt, Matcher.definedAt, Literal.accepts, beq_eq_decide]
  · intro cs hcs
    rcases readString_cases hcs with ⟨s, hs⟩ | ⟨e, he, hfault⟩
    · have hunique : ∀ t, Writes cs t ↔ t = s := by
        intro t
        constructor
        · exact hs.unique
        · rintro rfl
          exact hs
      refine ⟨Or.inl ⟨s, hunique, hs.parse⟩, ?_, ?_⟩
      · rintro ⟨fault, hfault⟩
        rw [hs.parse] at hfault
        cases hfault
      · rintro ⟨e, he⟩
        exact absurd he (hs.not_hasUnknownEscape e)
    · have hrefused := Lexeme.parse_of_fault (l := ⟨.string, cs⟩) hcs hfault
      exact ⟨Or.inr ⟨e, he, hrefused⟩, fun _ => ⟨e, he⟩, fun _ => ⟨_, hrefused⟩⟩

/-- Of three backslashes the second is escaped and the third begins an escape: of a quote
    that does not close the string, or of nothing. -/
theorem strings_read_as_written_backslashes :
    (∃ c, compilePattern "\"\\\\\\\"'\n\\n\"" = .ok c ∧
      c.definedAt (.string "\\\"'\n\n") = .ok true ∧
      c.definedAt (.string "\\\"'\n") = .ok false) ∧
    ∃ fault, Pattern.parse "'\\\\\\q'" = .error fault := by
  obtain ⟨hwritten, hstring⟩ := strings_read_as_written
  have hwrites : Writes "\"\\\\\\\"'\n\\n\"".toList "\\\"'\n\n" :=
    ⟨'"', _, Or.inl rfl, .escaped (by decide) (.escaped (by decide) (.raw (by decide) (by decide)
      (.raw (by decide) (by decide) (.escaped (by decide) .nil)))), rfl⟩
  have htaken : takeString? "'\\\\\\q'".toList = some ("'\\\\\\q'".toList, []) := by decide
  have hunknown : HasUnknownEscape 'q' "'\\\\\\q'".toList :=
    ⟨⟨['\'', '\\', '\\'], ['\''], rfl, (inEscape_eq_false_iff _).mp rfl⟩,
      escapeValue?_eq_none_iff.mp rfl⟩
  obtain ⟨-, -, c, hc, hdefined⟩ := hwritten _ _ hwrites
  obtain ⟨-, hrefused⟩ := hstring _ (takeString?_sound htaken).2
  exact ⟨⟨c, hc, hdefined _, hdefined _⟩, hrefused.mpr ⟨'q', hunknown⟩⟩

/-! ### Numbers -/

/-- An integer is written with its decimal digits, behind a minus if it is negative. -/
theorem toList_toString (n : Int) :
    ∃ negative : Bool,
      (toString n).toList = (if negative then ['-'] else []) ++ Nat.toDigits 10 n.natAbs ∧
      n = if negative then -(n.natAbs : Int) else n.natAbs := by
  cases n with
  | ofNat k =>
    refine ⟨false, ?_, rfl⟩
    have htext : toString (Int.ofNat k) = Nat.repr k := rfl
    rw [htext, Nat.repr_eq_ofList_toDigits, String.toList_ofList]
    rfl
  | negSucc k =>
    refine ⟨true, ?_, rfl⟩
    have htext : toString (Int.negSucc k) = "-" ++ Nat.repr (k + 1) := rfl
    have hminus : "-".toList = ['-'] := rfl
    rw [htext, String.toList_append, hminus, Nat.repr_eq_ofList_toDigits, String.toList_ofList]
    rfl

theorem accepts_integer_integer (n m : Int) :
    (Literal.integer n).accepts (.integer m) = .ok (decide (m = n)) := by
  have hequal : (Literal.integer n).accepts (.integer m) = .ok ((m : Rat) == n) := rfl
  rw [hequal, beq_eq_decide]
  simp only [Int.cast_inj]

/-- The text of an integer is a word that stands for it, unless it is too long. -/
theorem readNumber_toString {n : Int} (hn : (toString n.natAbs).length ≤ integerDigitLimit) :
    (toString n).toList ∈ Terminal.integer.lexemes ∧
      readNumber (toString n).toList = .ok (.integer n) := by
  have hdigits : ∀ c ∈ Nat.toDigits 10 n.natAbs, isDecimalDigit c = true := fun c hc =>
    isDecimalDigit_of_isDigit (Nat.isDigit_of_mem_toDigits (by decide) (by decide) hc)
  obtain ⟨ds, hds⟩ := exists_hasDigits hdigits
  have hlimit : ds.length ≤ integerDigitLimit := by
    rwa [Nat.toString_eq_ofList_toDigits, String.length_ofList, hds.length_eq] at hn
  have hvalue : Nat.ofDigits 10 ds.reverse = n.natAbs := by
    rw [← hds.digitsValue, digitsValue_toDigits]
  obtain ⟨negative, htext, hsign⟩ := toList_toString n
  have hsigned : SignedDigits negative ds (toString n).toList :=
    ⟨hds.ne_nil_iff.mp Nat.toDigits_ne_nil, _, hds, htext⟩
  refine ⟨mem_integerLexemes.mpr ⟨negative, ds, hsigned⟩, ?_⟩
  rw [hsigned.readNumber, if_neg (Nat.not_lt.mpr hlimit), hvalue, ← hsign]

/-- An integer is read as the signed number that its digits write, whatever their scripts
    and with leading zeros, and is refused exactly if it has more than 4300 of them. A
    floating-point number always has a value, and nothing is a number of both kinds. The
    text of an integer matches this integer and no other, and no truth value. -/
theorem numbers_read_as_written :
    (∀ w, w ∈ Terminal.integer.lexemes ↔ ∃ negative ds, SignedDigits negative ds w) ∧
    (∀ negative ds w, SignedDigits negative ds w →
      readNumber w =
        if 4300 < ds.length then .error (.number (.tooManyDigits ds.length))
        else .ok (.integer (if negative then -((Nat.ofDigits 10 ds.reverse : Nat) : Int)
          else (Nat.ofDigits 10 ds.reverse : Nat)))) ∧
    (∀ w ∈ Terminal.float.lexemes, ∃ x, readNumber w = .ok (.float x)) ∧
    (∀ w, ¬ (w ∈ Terminal.integer.lexemes ∧ w ∈ Terminal.float.lexemes)) ∧
    ∀ n : Int, (toString n.natAbs).length ≤ 4300 →
      ∃ c, compilePattern (toString n) = .ok c ∧
        (∀ m : Int, c.definedAt (.integer m) = .ok (decide (m = n))) ∧
        ∀ b, c.definedAt (.bool b) = .ok false := by
  refine ⟨fun w => mem_integerLexemes, fun negative ds w h => h.readNumber,
    fun w hw => readNumber_float hw, ?_, ?_⟩
  · rintro w ⟨hinteger, hfloat⟩
    have hfloating := isFloating_float hfloat
    rw [isFloating_integer hinteger] at hfloating
    cases hfloating
  · intro n hn
    obtain ⟨hword, hvalue⟩ := readNumber_toString hn
    have hcompiled := Lexeme.compilePattern_text (l := ⟨.integer, (toString n).toList⟩) hword hvalue
    rw [String.ofList_toList] at hcompiled
    refine ⟨_, hcompiled, ?_, fun b => rfl⟩
    intro m
    rw [CompiledPattern.definedAt, Matcher.definedAt, accepts_integer_integer]

/-- Digits of three scripts behind a minus, and the text of the number that they write. -/
theorem numbers_read_as_written_mixed :
    readNumber ['-', '0', '\u0663', '\uff15'] = .ok (.integer (-35)) ∧
    (∃ x, readNumber ['1', '\u0663', 'e', '9'] = .ok (.float x)) ∧
    ∃ c, compilePattern "-35" = .ok c ∧ c.definedAt (.integer (-35)) = .ok true ∧
      c.definedAt (.integer 35) = .ok false := by
  obtain ⟨-, hinteger, hfloat, -, hcompiled⟩ := numbers_read_as_written
  have hdigits : HasDigits ['0', '\u0663', '\uff15'] [0, 3, 5] := by
    refine .cons ⟨by decide, 0x30, by decide, rfl⟩ (.cons ⟨by decide, 0x660, by decide, rfl⟩
      (.cons ⟨by decide, 0xff10, by decide, rfl⟩ .nil))
  have hsigned : SignedDigits true [0, 3, 5] ['-', '0', '\u0663', '\uff15'] :=
    ⟨by decide, _, hdigits, rfl⟩
  have htaken : takeFloat? ['1', '\u0663', 'e', '9'] = some (['1', '\u0663', 'e', '9'], []) := by
    decide
  obtain ⟨c, hc, hdefined, -⟩ := hcompiled (-35) (by decide)
  refine ⟨?_, hfloat _ (takeFloat?_sound htaken).2, c, hc, hdefined (-35), hdefined 35⟩
  rw [hinteger true [0, 3, 5] _ hsigned]
  rfl

end Destructure
