/-
  Destructure/Proofs/Pattern/Quotation.lean
  =========================================
  **Texts in quotes** — each character of a text is written as it is or, if it is one of
  seven, as what stands for it behind a backslash. Where such an escape begins is told by
  the backslashes in front of it: behind an even number of them a backslash begins one
  (`Unescaped`). Cutting and decoding both go from left to right and never look back, and
  yet agree with that. So a string decodes to the one text that is written in it, unless
  an escape begins before a character that stands for none (`readString_cases`).
-/
import Mathlib.Algebra.Group.Nat.Even
import Destructure.Pattern.Literal
import Destructure.Proofs.Outcome
import Destructure.Proofs.Pattern.Terminal

namespace Destructure

open scoped Computability

/-! ### Escapes -/

/-- The characters that can be escaped, each with what stands for it behind a backslash. -/
def escapes : List (Char × Char) :=
  [('\\', '\\'), ('\'', '\''), ('"', '"'), ('\n', 'n'), ('\t', 't'), ('\r', 'r'), ('\x00', '0')]

theorem escapeValue?_eq_some_iff {e c : Char} : escapeValue? e = some c ↔ (c, e) ∈ escapes := by
  constructor
  · intro h
    unfold escapeValue? at h
    split at h <;> cases h <;> decide
  · intro h
    simp only [escapes, List.mem_cons, List.not_mem_nil, Prod.mk.injEq, or_false] at h
    rcases h with ⟨rfl, rfl⟩ | ⟨rfl, rfl⟩ | ⟨rfl, rfl⟩ | ⟨rfl, rfl⟩ | ⟨rfl, rfl⟩ | ⟨rfl, rfl⟩ |
      ⟨rfl, rfl⟩ <;> rfl

theorem escapeValue?_eq_none_iff {e : Char} :
    escapeValue? e = none ↔ ∀ c, (c, e) ∉ escapes := by
  simp only [← escapeValue?_eq_some_iff, Option.eq_none_iff_forall_ne_some, ne_eq]

/-- In quotes `q`, the first characters write the second. -/
inductive Quotation (q : Char) : List Char → List Char → Prop
  | nil : Quotation q [] []
  | raw {c : Char} {w s : List Char} : c ≠ '\\' → c ≠ q → Quotation q w s →
      Quotation q (c :: w) (c :: s)
  | escaped {c e : Char} {w s : List Char} : (c, e) ∈ escapes → Quotation q w s →
      Quotation q ('\\' :: e :: w) (c :: s)

/-- The characters are a text in quotes of one of the two kinds. -/
def Writes (cs : List Char) (s : String) : Prop :=
  ∃ q w, (q = '"' ∨ q = '\'') ∧ Quotation q w s.toList ∧ cs = q :: (w ++ [q])

/-! ### Where an escape begins -/

/-- A backslash behind the characters is not escaped itself: they end with an even number of
    backslashes. -/
def Unescaped (before : List Char) : Prop :=
  Even (before.reverse.takeWhile (· = '\\')).length

/-- Whether an escape is begun and not ended yet, as known from left to right. -/
def inEscape (cs : List Char) (begun : Bool) : Bool :=
  cs.foldl (fun begun c => !begun && c = '\\') begun

theorem inEscape_eq_false_iff (cs : List Char) : inEscape cs false = false ↔ Unescaped cs := by
  induction cs using List.reverseRecOn with
  | nil => simp [inEscape, Unescaped]
  | append_singleton cs c ih =>
    have hstep : inEscape (cs ++ [c]) false = (!inEscape cs false && c = '\\') := by
      rw [inEscape, List.foldl_append]
      rfl
    rw [hstep, Unescaped, List.reverse_append, List.reverse_singleton, List.singleton_append,
      List.takeWhile_cons]
    by_cases hc : c = '\\'
    · rw [if_pos (by simpa using hc), List.length_cons, Nat.even_add_one]
      rw [Unescaped] at ih
      rw [← ih]
      simp [hc]
    · rw [if_neg (by simpa using hc)]
      simp [hc]

theorem unescaped_nil : Unescaped [] := (inEscape_eq_false_iff []).mp rfl

theorem unescaped_cons_iff {c : Char} (hc : c ≠ '\\') (cs : List Char) :
    Unescaped (c :: cs) ↔ Unescaped cs := by
  rw [← inEscape_eq_false_iff, ← inEscape_eq_false_iff, inEscape, List.foldl_cons]
  simp [hc, inEscape]

theorem unescaped_escape_iff (c : Char) (cs : List Char) :
    Unescaped ('\\' :: c :: cs) ↔ Unescaped cs := by
  rw [← inEscape_eq_false_iff, ← inEscape_eq_false_iff, inEscape, List.foldl_cons,
    List.foldl_cons]
  simp [inEscape]

theorem not_unescaped_backslash : ¬ Unescaped ['\\'] := by
  rw [← inEscape_eq_false_iff]
  decide

/-- The characters have an escape that begins before the character. -/
def HasEscape (e : Char) (cs : List Char) : Prop :=
  ∃ before after, cs = before ++ '\\' :: e :: after ∧ Unescaped before

/-- The characters have an escape that stands for nothing. -/
def HasUnknownEscape (e : Char) (cs : List Char) : Prop :=
  HasEscape e cs ∧ ∀ c, (c, e) ∉ escapes

/-! ### Decoding -/

theorem unescape_cons_of_ne {c : Char} (hc : c ≠ '\\') (cs : List Char) :
    unescape (c :: cs) = (unescape cs).map (c :: ·) := by
  rw [unescape]
  intro d ds heq
  exact absurd heq hc

theorem unescape_escape {c e : Char} (h : (c, e) ∈ escapes) (cs : List Char) :
    unescape ('\\' :: e :: cs) = (unescape cs).map (c :: ·) := by
  rw [unescape, escapeValue?_eq_some_iff.mpr h]

/-- What is refused stands behind a backslash that begins an escape, and none ends
    with it. -/
theorem unescape_eq_error {cs : List Char} {e : Char} (h : unescape cs = .error e) :
    HasUnknownEscape e cs := by
  rw [HasUnknownEscape, ← escapeValue?_eq_none_iff]
  fun_induction unescape cs with
  | case1 => cases h
  | case2 d cs hvalue =>
    cases h
    exact ⟨⟨[], cs, rfl, unescaped_nil⟩, hvalue⟩
  | case3 d cs v hvalue ih =>
    obtain ⟨⟨before, after, rfl, hbefore⟩, hnone⟩ := ih (eq_error_of_map h)
    exact ⟨⟨'\\' :: d :: before, after, rfl, (unescaped_escape_iff d before).mpr hbefore⟩, hnone⟩
  | case4 d cs hplain ih =>
    obtain ⟨⟨before, after, rfl, hbefore⟩, hnone⟩ := ih (eq_error_of_map h)
    have hd : d ≠ '\\' := by
      rintro rfl
      cases before with
      | nil => exact hplain _ _ rfl rfl
      | cons b before => exact hplain _ _ rfl rfl
    exact ⟨⟨d :: before, after, rfl, (unescaped_cons_iff hd before).mpr hbefore⟩, hnone⟩

section Quoted

variable {q : Char} {w s : List Char}

/-- What is written is decoded. -/
theorem Quotation.unescape (h : Quotation q w s) : Destructure.unescape w = .ok s := by
  induction h with
  | nil => rfl
  | raw hbackslash _ _ ih =>
    rw [unescape_cons_of_ne hbackslash, ih]
    rfl
  | escaped hescape _ ih =>
    rw [unescape_escape hescape, ih]
    rfl

/-- Every escape in what is written stands for a character, up to the closing quote. -/
theorem Quotation.exists_escape (h : Quotation q w s) {e : Char} (he : HasEscape e (w ++ [q])) :
    ∃ c, (c, e) ∈ escapes := by
  obtain ⟨before, after, heq, hbefore⟩ := he
  induction h generalizing before with
  | nil =>
    have hlength := congrArg List.length heq
    simp only [List.nil_append, List.length_append, List.length_cons, List.length_nil] at hlength
    omega
  | @raw c w s hbackslash hquote hw ih =>
    cases before with
    | nil => exact absurd (List.cons.inj heq).1 hbackslash
    | cons b before =>
      simp only [List.cons_append, List.cons.injEq] at heq
      obtain ⟨rfl, heq⟩ := heq
      exact ih before heq ((unescaped_cons_iff hbackslash before).mp hbefore)
  | @escaped c d w s hescape hw ih =>
    -- the escape is this one, or it begins behind it, and not between its two characters
    cases before with
    | nil =>
      simp only [List.cons_append, List.nil_append, List.cons.injEq, true_and] at heq
      obtain ⟨rfl, -⟩ := heq
      exact ⟨c, hescape⟩
    | cons b before =>
      cases before with
      | nil =>
        simp only [List.cons_append, List.cons.injEq] at heq
        obtain ⟨rfl, -⟩ := heq
        exact absurd hbefore not_unescaped_backslash
      | cons b' before =>
        simp only [List.cons_append, List.cons.injEq] at heq
        obtain ⟨rfl, rfl, heq⟩ := heq
        exact ih before heq ((unescaped_escape_iff d before).mp hbefore)

/-! ### Strings -/

/-- What is written in quotes is a string. -/
theorem Quotation.mem_lexemes (hq : q = '"' ∨ q = '\'') (h : Quotation q w s) :
    q :: (w ++ [q]) ∈ Terminal.string.lexemes := by
  have hbody : w ++ [q] ∈ (stringUnit q)∗ * {[q]} := by
    induction h with
    | nil => exact Language.append_mem_mul (Language.nil_mem_kstar _) (mem_singleton_word.mpr rfl)
    | @raw c w s hbackslash hquote hw ih =>
      have hunit : [c] ∈ stringUnit q := Or.inl ⟨c, by simp [hquote, hbackslash], rfl⟩
      exact append_mem_star_mul (w := w ++ [q]) hunit ih
    | @escaped c e w s hescape hw ih =>
      have he : e ≠ '\n' := by
        rintro rfl
        simp [escapes] at hescape
      have hunit : ['\\'] ++ [e] ∈ stringUnit q :=
        Or.inr (Language.append_mem_mul (mem_singleton_word.mpr rfl) ⟨e, by simpa using he, rfl⟩)
      exact append_mem_star_mul (w := w ++ [q]) hunit ih
  have hstring : q :: (w ++ [q]) ∈ stringLexemes q :=
    Language.append_mem_mul (mem_singleton_word.mpr rfl) hbody
  rcases hq with rfl | rfl
  · exact Or.inl hstring
  · exact Or.inr hstring

/-- Units that are decoded write what comes of them. -/
theorem quotation_of_unescape {us : List (List Char)} (hus : ∀ u ∈ us, u ∈ stringUnit q)
    (h : unescape us.flatten = .ok s) : Quotation q us.flatten s := by
  induction us generalizing s with
  | nil =>
    cases h
    exact .nil
  | cons u us ih =>
    have hrest : ∀ v ∈ us, v ∈ stringUnit q := fun v hv => hus v (List.mem_cons_of_mem u hv)
    rw [List.flatten_cons] at h ⊢
    rcases (Language.mem_add _ _ _).mp (hus u List.mem_cons_self) with ⟨c, hc, rfl⟩ | hu
    · simp only [decide_eq_true_eq, Bool.and_eq_true, ne_eq] at hc
      rw [List.singleton_append, unescape_cons_of_ne hc.2] at h
      obtain ⟨s, hs, rfl⟩ := ok_of_map h
      exact .raw hc.2 hc.1 (ih hrest hs)
    · obtain ⟨backslash, hbackslash, _, ⟨e, he, rfl⟩, rfl⟩ := Language.mem_mul.mp hu
      obtain rfl := mem_singleton_word.mp hbackslash
      rw [List.singleton_append, List.cons_append, List.singleton_append] at h ⊢
      cases hvalue : escapeValue? e with
      | none =>
        rw [unescape, hvalue] at h
        cases h
      | some c =>
        have hescape := escapeValue?_eq_some_iff.mp hvalue
        rw [unescape_escape hescape] at h
        obtain ⟨s, hs, rfl⟩ := ok_of_map h
        exact .escaped hescape (ih hrest hs)

end Quoted

theorem unquote?_quoted {q : Char} (hq : q = '"' ∨ q = '\'') (w : List Char) :
    unquote? (q :: (w ++ [q])) = some w := by
  cases w with
  | nil => simp [unquote?, hq]
  | cons c cs =>
    have hlast : (c :: (cs ++ [q])).getLast? = some q := by
      rw [← List.cons_append, List.getLast?_concat]
    have hinside : (c :: (cs ++ [q])).dropLast = c :: cs := by
      rw [← List.cons_append, List.dropLast_concat]
    simp only [List.cons_append, unquote?, hlast, hinside, and_true, if_pos hq]

/-- A string is quotes around units. -/
theorem exists_units_of_string {cs : List Char} (hcs : cs ∈ Terminal.string.lexemes) :
    ∃ (q : Char) (us : List (List Char)), (q = '"' ∨ q = '\'') ∧ (∀ u ∈ us, u ∈ stringUnit q) ∧
      cs = q :: (us.flatten ++ [q]) := by
  have hquoted : ∀ q, cs ∈ stringLexemes q →
      ∃ us : List (List Char), (∀ u ∈ us, u ∈ stringUnit q) ∧ cs = q :: (us.flatten ++ [q]) := by
    intro q hcs
    obtain ⟨_, hopen, _, hbody, rfl⟩ := Language.mem_mul.mp hcs
    obtain ⟨inside, hinside, _, hclose, rfl⟩ := Language.mem_mul.mp hbody
    obtain ⟨us, rfl, hus⟩ := Language.mem_kstar.mp hinside
    obtain rfl := mem_singleton_word.mp hopen
    obtain rfl := mem_singleton_word.mp hclose
    exact ⟨us, hus, rfl⟩
  rcases (Language.mem_add _ _ _).mp hcs with hcs | hcs
  · obtain ⟨us, hus, rfl⟩ := hquoted '"' hcs
    exact ⟨'"', us, Or.inl rfl, hus, rfl⟩
  · obtain ⟨us, hus, rfl⟩ := hquoted '\'' hcs
    exact ⟨'\'', us, Or.inr rfl, hus, rfl⟩

theorem Writes.mem_lexemes {cs : List Char} {s : String} (h : Writes cs s) :
    cs ∈ Terminal.string.lexemes := by
  obtain ⟨q, w, hq, hquotation, rfl⟩ := h
  exact hquotation.mem_lexemes hq

theorem Writes.readString {cs : List Char} {s : String} (h : Writes cs s) :
    readString cs = .ok (.text s) := by
  obtain ⟨q, w, hq, hquotation, rfl⟩ := h
  rw [Destructure.readString, unquote?_quoted hq]
  simp only [hquotation.unescape, String.ofList_toList]

/-- Two texts are never written alike. -/
theorem Writes.unique {cs : List Char} {s t : String} (hs : Writes cs s) (ht : Writes cs t) :
    t = s :=
  Literal.text.inj (Except.ok.inj (ht.readString.symm.trans hs.readString))

/-- No escape in a string that is written stands for nothing. -/
theorem Writes.not_hasUnknownEscape {cs : List Char} {s : String} (h : Writes cs s) (e : Char) :
    ¬ HasUnknownEscape e cs := by
  rintro ⟨⟨before, after, heq, hbefore⟩, hnone⟩
  obtain ⟨q, w, hq, hquotation, rfl⟩ := h
  have hbackslash : q ≠ '\\' := by rcases hq with rfl | rfl <;> decide
  cases before with
  | nil => exact absurd (List.cons.inj heq).1 hbackslash
  | cons b before =>
    simp only [List.cons_append, List.cons.injEq] at heq
    obtain ⟨rfl, heq⟩ := heq
    obtain ⟨c, hc⟩ := hquotation.exists_escape
      ⟨before, after, heq, (unescaped_cons_iff hbackslash before).mp hbefore⟩
    exact hnone c hc

/-- A string writes a text, or has an escape that stands for no character and is refused
    for it. -/
theorem readString_cases {cs : List Char} (hcs : cs ∈ Terminal.string.lexemes) :
    (∃ s, Writes cs s) ∨
    ∃ e, HasUnknownEscape e cs ∧ readString cs = .error (.unknownEscape e) := by
  obtain ⟨q, us, hq, hus, rfl⟩ := exists_units_of_string hcs
  cases hinside : unescape us.flatten with
  | ok s =>
    have hquotation := quotation_of_unescape hus hinside
    rw [← String.toList_ofList (l := s)] at hquotation
    exact Or.inl ⟨String.ofList s, q, us.flatten, hq, hquotation, rfl⟩
  | error e =>
    have hbackslash : q ≠ '\\' := by rcases hq with rfl | rfl <;> decide
    obtain ⟨⟨before, after, heq, hbefore⟩, hnone⟩ := unescape_eq_error hinside
    refine Or.inr ⟨e, ⟨⟨q :: before, after ++ [q], ?_, ?_⟩, hnone⟩, ?_⟩
    · rw [heq]
      simp
    · exact (unescaped_cons_iff hbackslash before).mpr hbefore
    · rw [readString, unquote?_quoted hq]
      simp only [hinside]

end Destructure
