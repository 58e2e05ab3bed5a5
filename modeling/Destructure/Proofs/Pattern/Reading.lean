/-
  Destructure/Proofs/Pattern/Reading.lean
  =======================================
  **What the reader reads** — the reader takes a text exactly if it is the words of
  an outline in their order, with blanks anywhere between them, and then the pattern
  that it builds has this outline (`readForm_eq_ok_iff`). Tokens come between the two:
  a pattern is written with the words of its outline (`Pattern.words_of_derives`), and
  with the words of an outline a pattern of it is written (`Outline.exists_derives`).
-/
import Destructure.Proofs.Outcome
import Destructure.Proofs.Pattern.Cutting
import Destructure.Proofs.Pattern.Derivation
import Destructure.Proofs.Pattern.Outline

namespace Destructure

/-! ### The words of an outline -/

def splatName : Option String → List Char
  | some s => s.toList
  | none => anonymousName

mutual

/-- The words that a pattern with the outline is written with. -/
def Outline.words : Outline Lexeme → List Word
  | .literal l => [(l.kind.terminal, l.text)]
  | .name s => [(.name, s.toList)]
  | .array es => (.openBracket, ['[']) :: (separatedWords es ++ [(.closeBracket, [']'])])

def Entry.words : Entry Lexeme → List Word
  | .pattern o => o.words
  | .splat s => [(.star, ['*']), (.name, splatName s)]

/-- The words of entries with commas between them. -/
def separatedWords : List (Entry Lexeme) → List Word
  | [] => []
  | e :: es => e.words ++ furtherWords es

/-- The words of entries with a comma before each. -/
def furtherWords : List (Entry Lexeme) → List Word
  | [] => []
  | e :: es => (.comma, [',']) :: (e.words ++ furtherWords es)

end

mutual

/-- Every literal and every name is a word of its terminal, and no splat binds the
    name that stands for none. -/
def Outline.Wellspelled : Outline Lexeme → Prop
  | .literal l => l.text ∈ l.kind.terminal.lexemes
  | .name s => s.toList ∈ nameLexemes
  | .array es => EachWellspelled es

def Entry.Wellspelled : Entry Lexeme → Prop
  | .pattern o => o.Wellspelled
  | .splat none => True
  | .splat (some s) => s.toList ∈ nameLexemes ∧ s.toList ≠ anonymousName

def EachWellspelled : List (Entry Lexeme) → Prop
  | [] => True
  | e :: es => e.Wellspelled ∧ EachWellspelled es

end

theorem anonymousName_mem : anonymousName ∈ nameLexemes :=
  Language.mem_mul.mpr ⟨['_'], ⟨'_', by decide, rfl⟩, [], Language.nil_mem_kstar _, rfl⟩

mutual

theorem Outline.Wellspelled.spelled {o : Outline Lexeme} (h : o.Wellspelled) :
    ∀ w ∈ o.words, Spelled w := by
  cases o with
  | literal l =>
    intro w hw
    rw [Outline.words, List.mem_singleton] at hw
    rw [hw]
    exact h
  | name s =>
    intro w hw
    rw [Outline.words, List.mem_singleton] at hw
    rw [hw]
    exact h
  | array es =>
    intro w hw
    rw [Outline.words, List.mem_cons, List.mem_append, List.mem_singleton] at hw
    rcases hw with rfl | hw | rfl
    · exact mem_singleton_word.mpr rfl
    · cases es with
      | nil => cases hw
      | cons e es =>
        rw [Outline.Wellspelled, EachWellspelled] at h
        rw [separatedWords, List.mem_append] at hw
        rcases hw with hw | hw
        · exact Entry.Wellspelled.spelled h.1 w hw
        · exact EachWellspelled.spelled h.2 w hw
    · exact mem_singleton_word.mpr rfl

theorem Entry.Wellspelled.spelled {e : Entry Lexeme} (h : e.Wellspelled) :
    ∀ w ∈ e.words, Spelled w := by
  cases e with
  | pattern o => exact Outline.Wellspelled.spelled h
  | splat s =>
    intro w hw
    rw [Entry.words, List.mem_cons, List.mem_singleton] at hw
    rcases hw with rfl | rfl
    · exact mem_singleton_word.mpr rfl
    · cases s with
      | none => exact anonymousName_mem
      | some s => exact h.1

theorem EachWellspelled.spelled {es : List (Entry Lexeme)} (h : EachWellspelled es) :
    ∀ w ∈ furtherWords es, Spelled w := by
  cases es with
  | nil =>
    intro w hw
    cases hw
  | cons e es =>
    intro w hw
    rw [furtherWords, List.mem_cons, List.mem_append] at hw
    rcases hw with rfl | hw | hw
    · exact mem_singleton_word.mpr rfl
    · exact Entry.Wellspelled.spelled h.1 w hw
    · exact EachWellspelled.spelled h.2 w hw

end

/-! ### Words that may touch -/

/-- The first of some words, if there is one, is punctuation. -/
def PunctuationFirst (ws : List Word) : Prop := ∀ w ∈ ws.head?, w.1.isPunctuation = true

theorem Separable.cons_punctuation {w : Word} {ws : List Word} (hw : w.1.isPunctuation = true)
    (hws : Separable ws) : Separable (w :: ws) := by
  cases ws with
  | nil => exact .singleton w
  | cons v ws => exact List.isChain_cons_cons.mpr ⟨Or.inl hw, hws⟩

theorem Separable.cons {w : Word} {ws : List Word} (hfirst : PunctuationFirst ws)
    (hws : Separable ws) : Separable (w :: ws) := by
  cases ws with
  | nil => exact .singleton w
  | cons v ws => exact List.isChain_cons_cons.mpr ⟨Or.inr (hfirst v rfl), hws⟩

theorem punctuationFirst_cons {w : Word} (ws : List Word) (hw : w.1.isPunctuation = true) :
    PunctuationFirst (w :: ws) := by
  intro v hv
  rw [List.head?_cons, Option.mem_some_iff] at hv
  rwa [← hv]

theorem punctuationFirst_further (es : List (Entry Lexeme)) {vs : List Word}
    (hvs : PunctuationFirst vs) : PunctuationFirst (furtherWords es ++ vs) := by
  cases es with
  | nil => exact hvs
  | cons e es => exact punctuationFirst_cons _ rfl

mutual

/-- Of the words of an outline and punctuation behind them, no two grow together. -/
theorem Outline.separable (o : Outline Lexeme) {vs : List Word} (hvs : Separable vs)
    (hfirst : PunctuationFirst vs) : Separable (o.words ++ vs) := by
  cases o with
  | literal l => exact .cons hfirst hvs
  | name s => exact .cons hfirst hvs
  | array es =>
    rw [Outline.words, List.cons_append, List.append_assoc]
    -- brackets and commas may touch anything, and stand around every entry
    refine .cons_punctuation rfl ?_
    have hclose : Separable ((.closeBracket, [']']) :: vs) := .cons_punctuation rfl hvs
    cases es with
    | nil => exact hclose
    | cons e es =>
      rw [separatedWords, List.append_assoc]
      have hfurther := further_separable es hclose (punctuationFirst_cons _ rfl)
      exact e.separable hfurther (punctuationFirst_further es (punctuationFirst_cons _ rfl))

theorem Entry.separable (e : Entry Lexeme) {vs : List Word} (hvs : Separable vs)
    (hfirst : PunctuationFirst vs) : Separable (e.words ++ vs) := by
  cases e with
  | pattern o => exact o.separable hvs hfirst
  | splat s => exact .cons_punctuation rfl (.cons hfirst hvs)

theorem further_separable (es : List (Entry Lexeme)) {vs : List Word} (hvs : Separable vs)
    (hfirst : PunctuationFirst vs) : Separable (furtherWords es ++ vs) := by
  cases es with
  | nil => exact hvs
  | cons e es =>
    rw [furtherWords, List.cons_append, List.append_assoc]
    refine .cons_punctuation rfl ?_
    exact e.separable (further_separable es hvs hfirst) (punctuationFirst_further es hfirst)

end

/-! ### From a derivation to words -/

theorem word_of_punctuation {t : Token} (hspelled : Spelled t.word) {k : Terminal}
    {c : Char} (hk : k.lexemes = {[c]}) (ht : t.terminal = k) : t.word = (k, [c]) := by
  have htext : t.text ∈ t.terminal.lexemes := hspelled
  rw [ht, hk, mem_singleton_word] at htext
  rw [Token.word, ht, htext]

theorem toList_name_text (t : Token) : t.name.text.toList = t.text := String.toList_ofList

theorem splat_words {star t : Token} (hstar : star.terminal = .star) (ht : t.terminal = .name)
    (hspelled : Spelled star.word) :
    [star.word, t.word] = (Entry.splat (Splat.ofToken star.start t).name?).words := by
  have hname : t.word = (.name, t.text) := by rw [Token.word, ht]
  rw [word_of_punctuation hspelled rfl hstar, hname, Entry.words]
  by_cases htext : t.text = anonymousName
  · rw [Splat.ofToken, if_pos htext, Splat.name?, splatName, htext]
  · rw [Splat.ofToken, if_neg htext, Splat.name?, splatName, toList_name_text]

theorem splat_wellspelled {star t : Token} (ht : t.terminal = .name) (hspelled : Spelled t.word) :
    (Entry.splat (Splat.ofToken star.start t).name?).Wellspelled := by
  have hname : t.text ∈ nameLexemes := by
    have hmem : t.text ∈ t.terminal.lexemes := hspelled
    rwa [ht] at hmem
  by_cases htext : t.text = anonymousName
  · rw [Splat.ofToken, if_pos htext]
    trivial
  · rw [Splat.ofToken, if_neg htext]
    refine ⟨?_, ?_⟩
    · rwa [toList_name_text]
    · rwa [toList_name_text]

mutual

/-- A pattern is written with the words of its outline. -/
theorem Pattern.words_of_derives (p : Pattern Lexeme) {ts : List Token} (h : p.Derives ts)
    (hspelled : ∀ t ∈ ts, Spelled t.word) :
    ts.map Token.word = p.outline.words ∧ p.outline.Wellspelled := by
  cases p with
  | literal e l =>
    cases h with
    | @literal t kind ht =>
      have hword : t.word = (kind.terminal, t.text) := by rw [Token.word, ht]
      refine ⟨by rw [List.map_singleton, hword]; rfl, ?_⟩
      have htext := hspelled t (by simp)
      rwa [hword] at htext
  | name n =>
    cases h with
    | @name t ht =>
      have hword : t.word = (.name, t.text) := by rw [Token.word, ht]
      have htext := hspelled t (by simp)
      rw [hword] at htext
      refine ⟨?_, ?_⟩
      · rw [List.map_singleton, hword, Pattern.outline, Outline.words, toList_name_text]
      · rw [Pattern.outline, Outline.Wellspelled, toList_name_text]
        exact htext
  | empty e =>
    cases h with
    | @empty o c ho hc =>
      refine ⟨?_, trivial⟩
      rw [List.map_cons, List.map_singleton, word_of_punctuation (hspelled o (by simp)) rfl ho,
        word_of_punctuation (hspelled c (by simp)) rfl hc]
      rfl
  | array e es =>
    cases h with
    | @array o c _ ts ho hes hc =>
      obtain ⟨hwords, hwell⟩ := es.words_of_derives hes fun t ht => hspelled t (by simp [ht])
      refine ⟨?_, hwell⟩
      rw [List.cons_append, List.map_cons, List.map_append, List.map_singleton, hwords,
        word_of_punctuation (hspelled o (by simp)) rfl ho,
        word_of_punctuation (hspelled c (by simp)) rfl hc, Pattern.outline, Outline.words]

theorem Elements.words_of_derives (es : Elements Lexeme) {ts : List Token} (h : es.Derives ts)
    (hspelled : ∀ t ∈ ts, Spelled t.word) :
    ts.map Token.word = separatedWords es.entries ∧ EachWellspelled es.entries := by
  cases es with
  | one e i =>
    cases h with
    | one hi =>
      obtain ⟨hwords, hwell⟩ := i.words_of_derives hi hspelled
      refine ⟨?_, hwell, trivial⟩
      rw [hwords, Elements.entries, separatedWords, furtherWords, List.append_nil]
  | more e i c =>
    cases h with
    | @more _ _ ts us hi hc =>
      obtain ⟨hwords, hwell⟩ := i.words_of_derives hi fun t ht => hspelled t (by simp [ht])
      obtain ⟨hrest, hrestwell⟩ := c.words_of_derives hc fun t ht => hspelled t (by simp [ht])
      refine ⟨?_, hwell, hrestwell⟩
      rw [List.map_append, hwords, hrest, Elements.entries, separatedWords]

theorem Item.words_of_derives (i : Item Lexeme) {ts : List Token} (h : i.Derives ts)
    (hspelled : ∀ t ∈ ts, Spelled t.word) :
    ts.map Token.word = i.entry.words ∧ i.entry.Wellspelled := by
  cases i with
  | pattern p =>
    cases h with
    | pattern hp => exact p.words_of_derives hp hspelled
  | splat s =>
    cases h with
    | @splat star t hstar ht =>
      exact ⟨splat_words hstar ht (hspelled star (by simp)),
        splat_wellspelled ht (hspelled t (by simp))⟩

theorem Chain.words_of_derives (c : Chain Lexeme) {ts : List Token} (h : c.Derives ts)
    (hspelled : ∀ t ∈ ts, Spelled t.word) :
    ts.map Token.word = furtherWords c.entries ∧ EachWellspelled c.entries := by
  cases c with
  | link e i c =>
    cases h with
    | @link comma _ _ ts us hcomma hi hc =>
      obtain ⟨hwords, hwell⟩ := i.words_of_derives hi fun t ht => hspelled t (by simp [ht])
      obtain ⟨hrest, hrestwell⟩ := c.words_of_derives hc fun t ht => hspelled t (by simp [ht])
      refine ⟨?_, hwell, hrestwell⟩
      rw [List.cons_append, List.map_cons, List.map_append, hwords, hrest,
        word_of_punctuation (hspelled comma (by simp)) rfl hcomma, Chain.entries, furtherWords]
  | last e p =>
    cases h with
    | @last comma _ ts hcomma hp =>
      obtain ⟨hwords, hwell⟩ := p.words_of_derives hp fun t ht => hspelled t (by simp [ht])
      refine ⟨?_, hwell, trivial⟩
      rw [List.map_cons, hwords, word_of_punctuation (hspelled comma (by simp)) rfl hcomma,
        Chain.entries, furtherWords, furtherWords, List.append_nil, Entry.words]
  | lastSplat e s =>
    cases h with
    | @lastSplat comma star t hcomma hstar ht =>
      have hwords := splat_words hstar ht (hspelled star (by simp))
      refine ⟨?_, splat_wellspelled ht (hspelled t (by simp)), trivial⟩
      rw [List.map_cons, List.map_cons, List.map_singleton, hwords,
        word_of_punctuation (hspelled comma (by simp)) rfl hcomma, Chain.entries, furtherWords,
        furtherWords, List.append_nil]

end

/-! ### From words to a derivation -/

theorem word_eq_iff {t : Token} {k : Terminal} {cs : List Char} :
    t.word = (k, cs) ↔ t.terminal = k ∧ t.text = cs := by
  rw [Token.word, Prod.mk.injEq]

theorem Chain.entries_closing {α : Type} (e : Extent) (i : Item α) :
    (Chain.closing e i).entries = [i.entry] := by
  cases i <;> rfl

mutual

/-- With the words of an outline a pattern of it is written. -/
theorem Outline.exists_derives (o : Outline Lexeme) (hwell : o.Wellspelled) {ts : List Token}
    (hts : ts.map Token.word = o.words) : ∃ p : Pattern Lexeme, p.outline = o ∧ p.Derives ts := by
  cases o with
  | literal l =>
    rw [Outline.words, List.map_eq_singleton_iff] at hts
    obtain ⟨t, rfl, hword⟩ := hts
    obtain ⟨ht, htext⟩ := word_eq_iff.mp hword
    refine ⟨_, ?_, .literal ht⟩
    rw [Pattern.outline, htext]
  | name s =>
    rw [Outline.words, List.map_eq_singleton_iff] at hts
    obtain ⟨t, rfl, hword⟩ := hts
    obtain ⟨ht, htext⟩ := word_eq_iff.mp hword
    refine ⟨_, ?_, .name ht⟩
    rw [Pattern.outline, Token.name, htext, String.ofList_toList]
  | array es =>
    rw [Outline.words, List.map_eq_cons_iff] at hts
    obtain ⟨o, rest, rfl, ho, hts⟩ := hts
    rw [List.map_eq_append_iff] at hts
    obtain ⟨us, ds, rfl, hus, hc⟩ := hts
    rw [List.map_eq_singleton_iff] at hc
    obtain ⟨c, rfl, hc⟩ := hc
    have ho := (word_eq_iff.mp ho).1
    have hc := (word_eq_iff.mp hc).1
    cases es with
    | nil =>
      rw [separatedWords, List.map_eq_nil_iff] at hus
      subst hus
      exact ⟨_, rfl, .empty ho hc⟩
    | cons e es =>
      rw [separatedWords, List.map_eq_append_iff] at hus
      obtain ⟨vs, ws, rfl, hvs, hws⟩ := hus
      obtain ⟨i, rfl, hi⟩ := e.exists_derives hwell.1 hvs
      by_cases hes : es = []
      · subst hes
        rw [furtherWords, List.map_eq_nil_iff] at hws
        subst hws
        rw [List.append_nil]
        exact ⟨_, rfl, .array ho (.one hi) hc⟩
      · obtain ⟨chain, rfl, hchain⟩ := further_exists_derives es hes hwell.2 hws
        exact ⟨_, rfl, .array ho (.more hi hchain) hc⟩

theorem Entry.exists_derives (e : Entry Lexeme) (hwell : e.Wellspelled) {ts : List Token}
    (hts : ts.map Token.word = e.words) : ∃ i : Item Lexeme, i.entry = e ∧ i.Derives ts := by
  cases e with
  | pattern o =>
    obtain ⟨p, rfl, hp⟩ := o.exists_derives hwell hts
    exact ⟨.pattern p, rfl, .pattern hp⟩
  | splat s =>
    rw [Entry.words, List.map_eq_cons_iff] at hts
    obtain ⟨star, rest, rfl, hstar, hts⟩ := hts
    rw [List.map_eq_singleton_iff] at hts
    obtain ⟨t, rfl, ht⟩ := hts
    have hstar := (word_eq_iff.mp hstar).1
    obtain ⟨ht, htext⟩ := word_eq_iff.mp ht
    refine ⟨_, ?_, .splat hstar ht⟩
    -- a splat that binds a name is not written `*_`, so the name comes back
    cases s with
    | none =>
      have heq : t.text = anonymousName := htext
      rw [Item.entry, Splat.ofToken, if_pos heq, Splat.name?]
    | some s =>
      have hne : t.text ≠ anonymousName := by
        rw [htext]
        exact hwell.2
      rw [Item.entry, Splat.ofToken, if_neg hne, Splat.name?, Token.name, htext, splatName,
        String.ofList_toList]

theorem further_exists_derives (es : List (Entry Lexeme)) (hne : es ≠ [])
    (hwell : EachWellspelled es) {ts : List Token} (hts : ts.map Token.word = furtherWords es) :
    ∃ c : Chain Lexeme, c.entries = es ∧ c.Derives ts := by
  cases es with
  | nil => exact absurd rfl hne
  | cons e es =>
    rw [furtherWords, List.map_eq_cons_iff] at hts
    obtain ⟨comma, rest, rfl, hcomma, hts⟩ := hts
    rw [List.map_eq_append_iff] at hts
    obtain ⟨vs, ws, rfl, hvs, hws⟩ := hts
    have hcomma := (word_eq_iff.mp hcomma).1
    obtain ⟨i, rfl, hi⟩ := e.exists_derives hwell.1 hvs
    by_cases hes : es = []
    · subst hes
      rw [furtherWords, List.map_eq_nil_iff] at hws
      subst hws
      rw [List.append_nil]
      exact ⟨_, Chain.entries_closing _ i, (Chain.Derives.closing hcomma hi).1⟩
    · obtain ⟨c, rfl, hc⟩ := further_exists_derives es hes hwell.2 hws
      exact ⟨_, rfl, .link hcomma hi hc⟩

end

/-! ### Reading a text -/

/-- A text that is read is tokens in their places, and the pattern is written with
    them. -/
theorem derives_of_readForm {cs : List Char} {p : Pattern Lexeme} (h : readForm cs = .ok p) :
    ∃ ts front blanks, cs = front ++ blanks ∧ Laid 0 ts front ∧ Blanks blanks ∧
      (∀ t ∈ ts, Spelled t.word) ∧ p.Derives ts := by
  obtain ⟨place, hrun, hfinish⟩ := bind_eq_ok_iff.mp h
  cases htokens : tokensOf cs with
  | mk ts stray =>
    rw [htokens] at hrun hfinish
    have hderives := Place.Derives.run .start hrun
    rw [List.nil_append] at hderives
    simp only [Place.finish] at hfinish
    split at hfinish
    · cases hfinish
    · next q =>
      rw [Except.ok.injEq] at hfinish
      subst hfinish
      obtain ⟨front, blanks, hcs, hlaid, hblanks, hspelled⟩ :=
        laid_of_tokensFrom (Nat.lt_succ_self _) htokens
      cases hderives with
      | complete hp => exact ⟨ts, front, blanks, hcs, hlaid, hblanks, hspelled, hp⟩
    · cases hfinish

/-- A text that is cut to its end is read as the pattern that is written with its
    tokens. -/
theorem readForm_of_derives {cs : List Char} {ts : List Token} {p : Pattern Lexeme}
    (htokens : tokensOf cs = ⟨ts, none⟩) (h : p.Derives ts) : readForm cs = .ok p := by
  simp only [readForm, htokens, p.run_of_derives_start h]
  rfl

/-- The reader takes a text exactly if it is the words of an outline with blanks
    around them, and then for a pattern of that outline. -/
theorem readForm_eq_ok_iff (cs : List Char) (o : Outline Lexeme) :
    (∃ p, readForm cs = .ok p ∧ p.outline = o) ↔
      o.Wellspelled ∧ Spaced (o.words.map (·.2)) cs := by
  constructor
  · rintro ⟨p, hread, rfl⟩
    obtain ⟨ts, front, blanks, rfl, hlaid, hblanks, hspelled, hp⟩ := derives_of_readForm hread
    obtain ⟨hwords, hwell⟩ := p.words_of_derives hp hspelled
    refine ⟨hwell, ?_⟩
    rw [← hwords]
    exact hlaid.spaced hblanks
  · rintro ⟨hwell, hspaced⟩
    have hseparable : Separable o.words := by
      have hnil : PunctuationFirst [] := fun w hw => by cases hw
      have h := o.separable .nil hnil
      rwa [List.append_nil] at h
    obtain ⟨ts, htokens, hwords⟩ : ∃ ts, tokensOf cs = ⟨ts, none⟩ ∧ ts.map Token.word = o.words :=
      tokensFrom_complete o.words hwell.spelled hseparable hspaced (Nat.lt_succ_self _)
    obtain ⟨p, hp, hderives⟩ := o.exists_derives hwell hwords
    exact ⟨p, readForm_of_derives htokens hderives, hp⟩

end Destructure
