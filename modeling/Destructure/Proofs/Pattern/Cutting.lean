/-
  Destructure/Proofs/Pattern/Cutting.lean
  =======================================
  **Cutting a text into tokens** — a text is cut to the end exactly if it is some
  words with blanks before, between and behind them, and then into these words. Two
  words that are not punctuation must not touch; in a pattern they never do. What is
  cut off stands in its place in the text (`Laid`), and that also holds of the tokens
  before the first character that starts none.
-/
import Mathlib.Data.List.Chain
import Destructure.Proofs.Pattern.Terminal

namespace Destructure

/-- A terminal and the characters of a token of it. -/
abbrev Word := Terminal × List Char

def Token.word (t : Token) : Word := (t.terminal, t.text)

/-- The characters are a word of the terminal. -/
def Spelled (w : Word) : Prop := w.2 ∈ w.1.lexemes

/-- Of two words that follow one another one is punctuation. -/
def Separable (ws : List Word) : Prop :=
  ws.IsChain fun v w => v.1.isPunctuation = true ∨ w.1.isPunctuation = true

/-- A run of blanks, of any length. -/
def Blanks (cs : List Char) : Prop := ∀ c ∈ cs, isBlank c = true

/-- The characters are the given words in their order, with any runs of blanks
    before, between and behind them. -/
inductive Spaced : List (List Char) → List Char → Prop
  | done {blanks : List Char} : Blanks blanks → Spaced [] blanks
  | word {blanks w cs : List Char} {ws : List (List Char)} :
      Blanks blanks → Spaced ws cs → Spaced (w :: ws) (blanks ++ (w ++ cs))

/-! ### Words -/

theorem Spelled.head {w : Word} (h : Spelled w) :
    ∃ c cs, w.2 = c :: cs ∧ isBlank c = false ∧
      (w.1.isPunctuation = true → (punctuation? c).isSome = true) := by
  obtain ⟨t, cs⟩ := w
  cases ht : t.isPunctuation with
  | true =>
    cases t with
    | openBracket => exact ⟨'[', [], h, by decide, fun _ => rfl⟩
    | closeBracket => exact ⟨']', [], h, by decide, fun _ => rfl⟩
    | comma => exact ⟨',', [], h, by decide, fun _ => rfl⟩
    | star => exact ⟨'*', [], h, by decide, fun _ => rfl⟩
    | float | integer | name | string => cases ht
  | false =>
    obtain ⟨c, ds, hcs, -, hblank⟩ := head_of_word h ht
    exact ⟨c, ds, hcs, hblank, fun hp => by cases hp⟩

/-- Behind a word that is not punctuation stands what ends it. -/
theorem Spaced.stops {ws : List Word} {cs : List Char} (h : Spaced (ws.map (·.2)) cs)
    (hhead : ∀ w ∈ ws.head?, Spelled w ∧ w.1.isPunctuation = true) : Stops cs := by
  intro c hc
  cases ws with
  | nil =>
    rw [List.map_nil] at h
    cases h with
    | done hblanks => exact Or.inl (hblanks c (List.mem_of_mem_head? hc))
  | cons w ws =>
    rw [List.map_cons] at h
    cases h with
    | @word blanks _ cs _ hblanks hrest =>
      -- a blank ends the word, and without one the next word has to
      cases blanks with
      | cons b blanks =>
        simp only [List.cons_append, List.head?_cons, Option.mem_some_iff] at hc
        exact Or.inl (hblanks c (by simp [hc]))
      | nil =>
        obtain ⟨hspelled, hpunctuation⟩ := hhead w (by simp)
        obtain ⟨d, ds, hw, -, hd⟩ := hspelled.head
        simp only [hw, List.nil_append, List.cons_append, List.head?_cons,
          Option.mem_some_iff] at hc
        subst hc
        exact Or.inr (hd hpunctuation)

/-- Of separable words, each is punctuation or stands before what ends it. -/
theorem Spaced.ends {w : Word} {ws : List Word} {cs : List Char} (h : Spaced (ws.map (·.2)) cs)
    (hspelled : ∀ v ∈ ws, Spelled v) (hseparable : Separable (w :: ws)) :
    w.1.isPunctuation = true ∨ Stops cs := by
  by_cases hw : w.1.isPunctuation = true
  · exact Or.inl hw
  · refine Or.inr (h.stops ?_)
    intro v hv
    refine ⟨hspelled v (List.mem_of_mem_head? hv), ?_⟩
    cases ws with
    | nil => cases hv
    | cons u us =>
      simp only [List.head?_cons, Option.mem_some_iff] at hv
      subst hv
      exact (List.isChain_cons_cons.mp hseparable).1.resolve_left hw

/-- Leading blanks of a text are taken off, and no more. -/
theorem blanks_exact {blanks cs : List Char} {w : Word} (hblanks : Blanks blanks)
    (hw : Spelled w) :
    (blanks ++ (w.2 ++ cs)).takeWhile isBlank = blanks ∧
      (blanks ++ (w.2 ++ cs)).dropWhile isBlank = w.2 ++ cs := by
  refine takeWhile_append_exact hblanks ?_
  intro c hc
  obtain ⟨d, ds, hd, hblank, -⟩ := hw.head
  simp only [hd, List.cons_append, List.head?_cons, Option.mem_some_iff] at hc
  rwa [← hc]

theorem Blanks.append {bs cs : List Char} (hbs : Blanks bs) (hcs : Blanks cs) :
    Blanks (bs ++ cs) := by
  intro c hc
  rcases List.mem_append.mp hc with hc | hc
  · exact hbs c hc
  · exact hcs c hc

/-- Where two texts meet, their blanks become one run. -/
theorem Spaced.append {vs ws : List (List Char)} {cs ds : List Char} (h : Spaced vs cs)
    (h' : Spaced ws ds) : Spaced (vs ++ ws) (cs ++ ds) := by
  induction h with
  | done hblanks =>
    rw [List.nil_append]
    cases h' with
    | done hblanks' => exact .done (hblanks.append hblanks')
    | word hblanks' hrest =>
      rw [← List.append_assoc]
      exact .word (hblanks.append hblanks') hrest
  | word hblanks _ ih =>
    rw [List.cons_append, List.append_assoc, List.append_assoc]
    exact .word hblanks ih

/-- Words can stand without any blanks. -/
theorem spaced_flatten (ws : List (List Char)) : Spaced ws ws.flatten := by
  have hnone : Blanks [] := fun c hc => by cases hc
  induction ws with
  | nil => exact .done hnone
  | cons w ws ih => exact .word hnone ih

/-! ### Tokens in their places -/

/-- The characters from an offset on are the tokens, each in its place, with blanks
    before and between them; they end where the last token does. -/
inductive Laid : Nat → List Token → List Char → Prop
  | nil (offset : Nat) : Laid offset [] []
  | cons {offset : Nat} {t : Token} {ts : List Token} {blanks cs : List Char} :
      Blanks blanks → t.start = offset + blanks.length → Laid t.extent.stop ts cs →
      Laid offset (t :: ts) (blanks ++ (t.text ++ cs))

theorem Laid.spaced {offset : Nat} {ts : List Token} {cs blanks : List Char}
    (h : Laid offset ts cs) (hblanks : Blanks blanks) :
    Spaced ((ts.map Token.word).map (·.2)) (cs ++ blanks) := by
  induction h with
  | nil offset => exact .done hblanks
  | cons hfront _ _ ih =>
    rw [List.append_assoc, List.append_assoc]
    exact .word hfront ih

/-- Words with blanks around them stand in their places once an offset is given. -/
theorem Spaced.exists_laid {ws : List Word} {cs : List Char} (h : Spaced (ws.map (·.2)) cs)
    (offset : Nat) :
    ∃ ts front blanks, cs = front ++ blanks ∧ Laid offset ts front ∧ Blanks blanks ∧
      ts.map Token.word = ws := by
  induction ws generalizing offset cs with
  | nil =>
    rw [List.map_nil] at h
    cases h with
    | done hblanks => exact ⟨[], [], cs, rfl, .nil offset, hblanks, rfl⟩
  | cons w ws ih =>
    rw [List.map_cons] at h
    cases h with
    | @word blanks _ rest _ hblanks hrest =>
      let t : Token := ⟨w.1, offset + blanks.length, w.2⟩
      obtain ⟨ts, front, tail, rfl, hlaid, htail, rfl⟩ := ih hrest t.extent.stop
      refine ⟨t :: ts, blanks ++ (w.2 ++ front), tail, ?_, .cons hblanks rfl hlaid, htail, rfl⟩
      rw [List.append_assoc, List.append_assoc]

theorem Laid.start_le {offset : Nat} {ts : List Token} {cs : List Char} (h : Laid offset ts cs) :
    ∀ t ∈ ts, offset ≤ t.start := by
  induction h with
  | nil offset =>
    intro t ht
    cases ht
  | @cons offset t ts blanks cs _ hstart _ ih =>
    intro u hu
    rcases List.mem_cons.mp hu with rfl | hu
    · omega
    · have hle := ih u hu
      rw [Token.extent] at hle
      dsimp only at hle
      omega

/-- One token ends before the next begins. -/
theorem Laid.pairwise {offset : Nat} {ts : List Token} {cs : List Char} (h : Laid offset ts cs) :
    ts.Pairwise fun t u => t.extent.stop ≤ u.start := by
  induction h with
  | nil offset => exact .nil
  | cons _ _ hrest ih => exact .cons hrest.start_le ih

theorem Spelled.start_lt_stop {t : Token} (h : Spelled t.word) :
    t.extent.start < t.extent.stop := by
  obtain ⟨c, cs, hc, -⟩ := h.head
  have hc : t.text = c :: cs := hc
  rw [Token.extent, hc, List.length_cons]
  dsimp only
  omega

/-- Tokens in their places are cut in two between any two of them. -/
theorem Laid.append_inv {offset : Nat} {ts us : List Token} {cs : List Char}
    (h : Laid offset (ts ++ us) cs) :
    ∃ front rest, cs = front ++ rest ∧ Laid offset ts front ∧
      Laid (offset + front.length) us rest := by
  induction ts generalizing offset cs with
  | nil => exact ⟨[], cs, rfl, .nil offset, h⟩
  | cons t ts ih =>
    rw [List.cons_append] at h
    cases h with
    | @cons _ _ _ blanks cs hblanks hstart hrest =>
      obtain ⟨front, rest, rfl, hfront, hrest⟩ := ih hrest
      refine ⟨blanks ++ (t.text ++ front), rest, ?_, .cons hblanks hstart hfront, ?_⟩
      · simp only [List.append_assoc]
      · have hoffset : offset + (blanks ++ (t.text ++ front)).length =
            t.extent.stop + front.length := by
          rw [Token.extent, hstart]
          simp only [List.length_append]
          omega
        rwa [hoffset]

/-- A token stands behind those before it, and the others behind it. -/
theorem Laid.split {offset : Nat} {ts us : List Token} {t : Token} {cs : List Char}
    (h : Laid offset (ts ++ t :: us) cs) :
    ∃ front blanks rest, cs = (front ++ blanks) ++ (t.text ++ rest) ∧ Laid offset ts front ∧
      Blanks blanks ∧ t.start = offset + (front ++ blanks).length ∧
      Laid t.extent.stop us rest := by
  obtain ⟨front, rest, rfl, hfront, hrest⟩ := h.append_inv
  cases hrest with
  | @cons _ _ _ blanks rest hblanks hstart hrest =>
    refine ⟨front, blanks, rest, ?_, hfront, hblanks, ?_, hrest⟩
    · rw [List.append_assoc]
    · rw [hstart, List.length_append, Nat.add_assoc]

/-- A token is what the characters say at its place. -/
theorem Laid.text {offset : Nat} {ts : List Token} {cs : List Char} (h : Laid offset ts cs) :
    ∀ t ∈ ts, ∃ before after,
      cs = before ++ (t.text ++ after) ∧ t.start = offset + before.length := by
  intro t ht
  obtain ⟨us, vs, rfl⟩ := List.append_of_mem ht
  obtain ⟨front, blanks, rest, hcs, -, -, hstart, -⟩ := h.split
  exact ⟨front ++ blanks, rest, hcs, hstart⟩

/-! ### Cutting -/

/-- One step of cutting: the blanks, a token, and the rest. -/
theorem tokensFrom_succ (fuel : Nat) {offset : Nat} {t : Token} {blanks rest : List Char}
    (hblanks : Blanks blanks) (ht : Spelled t.word) (hstart : t.start = offset + blanks.length)
    (h : takeLexeme? (t.text ++ rest) = some (t.terminal, t.text, rest)) :
    tokensFrom (fuel + 1) offset (blanks ++ (t.text ++ rest)) =
      ⟨t :: (tokensFrom fuel t.extent.stop rest).tokens,
        (tokensFrom fuel t.extent.stop rest).stray⟩ := by
  obtain ⟨c, ds, hc, -⟩ := ht.head
  have hc : t.text = c :: ds := hc
  have htake : (blanks ++ (t.text ++ rest)).takeWhile isBlank = blanks :=
    (blanks_exact hblanks ht).1
  have hdrop : (blanks ++ (t.text ++ rest)).dropWhile isBlank = c :: (ds ++ rest) := by
    rw [← List.cons_append, ← hc]
    exact (blanks_exact hblanks ht).2
  rw [hc, List.cons_append] at h
  simp only [tokensFrom, htake, hdrop, h, Token.extent, ← hstart, ← hc]

/-- A text that is some tokens in their places is cut into these tokens. -/
theorem tokensFrom_of_laid {offset : Nat} {ts : List Token} {front blanks : List Char}
    (hlaid : Laid offset ts front) (hblanks : Blanks blanks)
    (hspelled : ∀ t ∈ ts, Spelled t.word) (hseparable : Separable (ts.map Token.word))
    {fuel : Nat} (hfuel : (front ++ blanks).length < fuel) :
    tokensFrom fuel offset (front ++ blanks) = ⟨ts, none⟩ := by
  induction hlaid generalizing fuel with
  | nil offset =>
    obtain ⟨fuel, rfl⟩ := Nat.exists_eq_add_one.mpr (Nat.zero_lt_of_lt hfuel)
    have hdrop : blanks.dropWhile isBlank = [] := List.dropWhile_eq_nil_iff.mpr hblanks
    simp [tokensFrom, hdrop]
  | @cons offset t ts lead cs hlead hstart hrest ih =>
    obtain ⟨fuel, rfl⟩ := Nat.exists_eq_add_one.mpr (Nat.zero_lt_of_lt hfuel)
    have ht : Spelled t.word := hspelled t (by simp)
    have hts : ∀ u ∈ ts, Spelled u.word := fun u hu => hspelled u (by simp [hu])
    have hends : t.terminal.isPunctuation = true ∨ Stops (cs ++ blanks) :=
      (hrest.spaced hblanks).ends (by simpa using hts) hseparable
    have hlength : (cs ++ blanks).length < fuel := by
      obtain ⟨c, ds, hc, -⟩ := ht.head
      have hc : t.text = c :: ds := hc
      simp only [List.length_append, hc, List.length_cons] at hfuel ⊢
      omega
    have hstep := tokensFrom_succ fuel hlead ht hstart (takeLexeme?_append ht hends)
    rw [ih hts hseparable.tail hlength] at hstep
    rw [List.append_assoc, List.append_assoc]
    exact hstep

/-- A text that is some words with blanks around them is cut into these words. -/
theorem tokensFrom_complete (ws : List Word) (hspelled : ∀ w ∈ ws, Spelled w)
    (hseparable : Separable ws) {fuel offset : Nat} {cs : List Char}
    (hspaced : Spaced (ws.map (·.2)) cs) (hfuel : cs.length < fuel) :
    ∃ ts, tokensFrom fuel offset cs = ⟨ts, none⟩ ∧ ts.map Token.word = ws := by
  obtain ⟨ts, front, blanks, rfl, hlaid, hblanks, rfl⟩ := hspaced.exists_laid offset
  have hts : ∀ t ∈ ts, Spelled t.word := fun t ht => hspelled _ (List.mem_map_of_mem ht)
  exact ⟨ts, tokensFrom_of_laid hlaid hblanks hts hseparable hfuel, rfl⟩

/-- Where a token is cut off, it stands behind the blanks, and cutting goes on behind
    it. -/
theorem tokensFrom_cons_inv {fuel offset : Nat} {cs : List Char} {t : Token} {ts : List Token}
    {stray : Option (Nat × Char)} (hfuel : cs.length < fuel)
    (h : tokensFrom fuel offset cs = ⟨t :: ts, stray⟩) :
    ∃ blanks rest fuel', cs = blanks ++ (t.text ++ rest) ∧ Blanks blanks ∧
      t.start = offset + blanks.length ∧ Spelled t.word ∧ rest.length < fuel' ∧
      tokensFrom fuel' t.extent.stop rest = ⟨ts, stray⟩ := by
  obtain ⟨fuel, rfl⟩ := Nat.exists_eq_add_one.mpr (Nat.zero_lt_of_lt hfuel)
  have hblanks : Blanks (cs.takeWhile isBlank) := fun c hc => List.mem_takeWhile_imp hc
  rw [tokensFrom] at h
  dsimp only at h
  split at h
  · cases h
  · next c ds hdrop =>
    split at h
    · cases h
    · next k w rest hlexeme =>
      obtain ⟨hsplit, hw⟩ := takeLexeme?_sound hlexeme
      simp only [Tokens.mk.injEq, List.cons.injEq] at h
      obtain ⟨⟨rfl, rfl⟩, rfl⟩ := h
      have hspelled : Spelled (k, w) := hw
      have hcs : cs = cs.takeWhile isBlank ++ (w ++ rest) := by
        rw [← hsplit, ← hdrop, List.takeWhile_append_dropWhile]
      -- no word is empty, so the fuel outlasts what is left
      have hlength : rest.length < fuel := by
        obtain ⟨d, us, hd, -⟩ := hspelled.head
        have hd : w = d :: us := hd
        rw [hcs] at hfuel
        simp only [List.length_append, hd, List.length_cons] at hfuel
        omega
      exact ⟨_, rest, fuel, hcs, hblanks, rfl, hspelled, hlength, rfl⟩

/-- Where no token is cut off, there are blanks, and behind them the end of the text or a
    character that starts no token. -/
theorem tokensFrom_nil_inv {fuel offset : Nat} {cs : List Char} {stray : Option (Nat × Char)}
    (hfuel : cs.length < fuel) (h : tokensFrom fuel offset cs = ⟨[], stray⟩) :
    ∃ blanks rest, cs = blanks ++ rest ∧ Blanks blanks ∧
      ((rest = [] ∧ stray = none) ∨ ∃ c more, rest = c :: more ∧
        stray = some (offset + blanks.length, c) ∧ isBlank c = false ∧
        takeLexeme? rest = none) := by
  obtain ⟨fuel, rfl⟩ := Nat.exists_eq_add_one.mpr (Nat.zero_lt_of_lt hfuel)
  have hblanks : Blanks (cs.takeWhile isBlank) := fun c hc => List.mem_takeWhile_imp hc
  refine ⟨_, _, List.takeWhile_append_dropWhile.symm, hblanks, ?_⟩
  rw [tokensFrom] at h
  dsimp only at h
  split at h
  · next hdrop =>
    simp only [Tokens.mk.injEq, true_and] at h
    exact Or.inl ⟨hdrop, h.symm⟩
  · next c ds hdrop =>
    split at h
    · next hlexeme =>
      simp only [Tokens.mk.injEq, true_and] at h
      have hc : isBlank c = false := by
        have hhead := List.head?_dropWhile_not isBlank cs
        rw [hdrop] at hhead
        simpa using hhead
      rw [hdrop]
      exact Or.inr ⟨c, ds, rfl, h.symm, hc, hlexeme⟩
    · cases h

/-- The first of the tokens of a text stand in their places at its head, and the others
    are what the rest is cut into. -/
theorem tokensFrom_append {fuel offset : Nat} {cs : List Char} {ts us : List Token}
    {stray : Option (Nat × Char)} (hfuel : cs.length < fuel)
    (h : tokensFrom fuel offset cs = ⟨ts ++ us, stray⟩) :
    ∃ front rest fuel', cs = front ++ rest ∧ Laid offset ts front ∧
      (∀ t ∈ ts, Spelled t.word) ∧ rest.length < fuel' ∧
      tokensFrom fuel' (offset + front.length) rest = ⟨us, stray⟩ := by
  induction ts generalizing fuel offset cs with
  | nil => exact ⟨[], cs, fuel, rfl, .nil offset, by simp, hfuel, h⟩
  | cons t ts ih =>
    obtain ⟨blanks, rest, fuel', rfl, hblanks, hstart, ht, hfuel', hrest⟩ :=
      tokensFrom_cons_inv hfuel h
    obtain ⟨front, rest, fuel'', rfl, hlaid, hts, hfuel'', hrest⟩ := ih hfuel' hrest
    refine ⟨blanks ++ (t.text ++ front), rest, fuel'', ?_, .cons hblanks hstart hlaid, ?_,
      hfuel'', ?_⟩
    · simp only [List.append_assoc]
    · intro u hu
      rcases List.mem_cons.mp hu with rfl | hu
      · exact ht
      · exact hts u hu
    · have hoffset : offset + (blanks ++ (t.text ++ front)).length =
          t.extent.stop + front.length := by
        rw [Token.extent, hstart]
        simp only [List.length_append]
        omega
      rw [hoffset, hrest]

/-- A text that is cut to its end is the tokens in their places, and blanks behind
    them. -/
theorem laid_of_tokensFrom {fuel offset : Nat} {cs : List Char} {ts : List Token}
    (hfuel : cs.length < fuel) (h : tokensFrom fuel offset cs = ⟨ts, none⟩) :
    ∃ front blanks, cs = front ++ blanks ∧ Laid offset ts front ∧ Blanks blanks ∧
      ∀ t ∈ ts, Spelled t.word := by
  rw [← List.append_nil ts] at h
  obtain ⟨front, rest, fuel', rfl, hlaid, hspelled, hfuel', hrest⟩ := tokensFrom_append hfuel h
  obtain ⟨blanks, rest, rfl, hblanks, ⟨rfl, -⟩ | ⟨c, more, -, hstray, -⟩⟩ :=
    tokensFrom_nil_inv hfuel' hrest
  · exact ⟨front, blanks, by rw [List.append_nil], hlaid, hblanks, hspelled⟩
  · cases hstray

end Destructure
