/-
  Destructure/Proofs/Pattern/Beginning.lean
  =========================================
  **Words that begin a pattern** — some words are the beginning of a pattern exactly if
  the reader goes over them, and they are a whole pattern exactly if it is then behind
  a complete one. What carries this is that the reader is never lost: from every place
  some words lead to the end of a pattern, with an item where one is missing and a
  closing bracket for every array that is open (`Place.closes`). So the tokens that it
  goes over at a place are those that can come next there, and it looks for no others.
-/
import Destructure.Proofs.Pattern.Reading

namespace Destructure

/-- The words are those of a pattern. -/
def Complete (ws : List Word) : Prop := ∃ o : Outline Lexeme, o.Wellspelled ∧ o.words = ws

/-- The words begin those of a pattern. -/
def Viable (ws : List Word) : Prop := ∃ more, Complete (ws ++ more)

theorem Complete.viable {ws : List Word} (h : Complete ws) : Viable ws :=
  ⟨[], by rwa [List.append_nil]⟩

theorem Complete.spelled {ws : List Word} (h : Complete ws) : ∀ w ∈ ws, Spelled w := by
  obtain ⟨o, hwell, rfl⟩ := h
  exact hwell.spelled

theorem Complete.separable {ws : List Word} (h : Complete ws) : Separable ws := by
  obtain ⟨o, -, rfl⟩ := h
  have hnil : PunctuationFirst [] := fun w hw => by cases hw
  have hwords := o.separable .nil hnil
  rwa [List.append_nil] at hwords

theorem Viable.spelled {ws : List Word} (h : Viable ws) : ∀ w ∈ ws, Spelled w := by
  obtain ⟨more, hmore⟩ := h
  exact fun w hw => hmore.spelled w (List.mem_append_left more hw)

theorem Viable.separable {ws : List Word} (h : Viable ws) : Separable ws := by
  obtain ⟨more, hmore⟩ := h
  exact hmore.separable.left_of_append

/-! ### The beginning of a text -/

/-- The characters are words that begin a pattern, with blanks around them. -/
def ReadAs (ws : List Word) (cs : List Char) : Prop := Viable ws ∧ Spaced (ws.map (·.2)) cs

/-- The beginning of a text is cut into words in one way only. -/
theorem ReadAs.unique {vs ws : List Word} {cs : List Char} (h : ReadAs vs cs)
    (h' : ReadAs ws cs) : vs = ws := by
  have hcut : ∀ {us : List Word}, ReadAs us cs →
      ∃ ts, tokensOf cs = ⟨ts, none⟩ ∧ ts.map Token.word = us := fun hus =>
    tokensFrom_complete _ hus.1.spelled hus.1.separable hus.2 (Nat.lt_succ_self _)
  obtain ⟨ts, hts, rfl⟩ := hcut h
  obtain ⟨us, hus, rfl⟩ := hcut h'
  rw [hts, Tokens.mk.injEq] at hus
  rw [hus.1]

/-- It can be continued to the text of a pattern. -/
theorem ReadAs.continued {ws : List Word} {cs : List Char} (h : ReadAs ws cs) :
    ∃ more, ∃ o : Outline Lexeme, o.Wellspelled ∧ Spaced (o.words.map (·.2)) (cs ++ more) := by
  obtain ⟨⟨us, o, hwell, hwords⟩, hspaced⟩ := h
  refine ⟨(us.map (·.2)).flatten, o, hwell, ?_⟩
  rw [hwords, List.map_append]
  exact hspaced.append (spaced_flatten _)

/-! ### From every place to the end of a pattern -/

/-- Some tokens lead from the place behind a complete pattern. -/
def Place.Closes (place : Place) : Prop :=
  ∃ ts p, (∀ t ∈ ts, Spelled t.word) ∧ place.run ts = .ok (.complete p)

theorem Place.Closes.step {place place' : Place} {t : Token} (ht : Spelled t.word)
    (hnext : place.next? t = some place') (h : place'.Closes) : place.Closes := by
  obtain ⟨ts, p, hts, hrun⟩ := h
  refine ⟨t :: ts, p, ?_, ?_⟩
  · intro u hu
    rcases List.mem_cons.mp hu with rfl | hu
    · exact ht
    · exact hts u hu
  · rw [Place.run_cons hnext, hrun]

/-- A token of each kind that closes what is open. -/
def closingBracket : Token := ⟨.closeBracket, 0, [']']⟩

def someName : Token := ⟨.name, 0, anonymousName⟩

theorem spelled_closingBracket : Spelled closingBracket.word := mem_singleton_word.mpr rfl

theorem spelled_someName : Spelled someName.word := anonymousName_mem

/-- Behind an item, a closing bracket for every open array is enough. -/
theorem Place.closes_after (p : Pattern Lexeme) (slots : List Slot) :
    (Place.after p slots).Closes := by
  induction slots generalizing p with
  | nil => exact ⟨[], p, by simp, rfl⟩
  | cons slot outer ih => exact .step spelled_closingBracket rfl (ih _)

theorem Place.closes_afterItem (a : OpenArray) (outer : List Slot) :
    (Place.afterItem a outer).Closes :=
  .step spelled_closingBracket rfl (closes_after _ outer)

theorem Place.closes (place : Place) : place.Closes := by
  cases place with
  | start => exact .step spelled_someName rfl (closes_after _ [])
  | opened bracket outer => exact .step spelled_closingBracket rfl (closes_after _ outer)
  | afterComma a comma outer => exact .step spelled_someName rfl (closes_afterItem _ outer)
  | afterStar slot star outer => exact .step spelled_someName rfl (closes_afterItem _ outer)
  | afterItem a outer => exact closes_afterItem a outer
  | complete p => exact ⟨[], p, by simp, rfl⟩

/-! ### The words that have been gone over -/

theorem Place.run_append (place : Place) (ts us : List Token) :
    place.run (ts ++ us) = place.run ts >>= fun next => next.run us := by
  induction ts generalizing place with
  | nil => rfl
  | cons t ts ih =>
    rw [List.cons_append]
    cases hnext : place.next? t with
    | none => simp only [run, hnext, error_bind]
    | some next => rw [run_cons hnext, run_cons hnext, ih]

/-- A token of the word, at no place in particular. -/
def Token.ofWord (w : Word) : Token := ⟨w.1, 0, w.2⟩

theorem map_word_ofWord (ws : List Word) : (ws.map Token.ofWord).map Token.word = ws := by
  rw [List.map_map]
  exact List.map_id ws

theorem complete_of_run {ts : List Token} {p : Pattern Lexeme}
    (hspelled : ∀ t ∈ ts, Spelled t.word) (h : Place.start.run ts = .ok (.complete p)) :
    Complete (ts.map Token.word) := by
  have hderives := Place.Derives.run .start h
  rw [List.nil_append] at hderives
  cases hderives with
  | complete hp =>
    obtain ⟨hwords, hwell⟩ := p.words_of_derives hp hspelled
    exact ⟨p.outline, hwell, hwords.symm⟩

theorem exists_run_of_complete {ts : List Token} (h : Complete (ts.map Token.word)) :
    ∃ p, Place.start.run ts = .ok (.complete p) := by
  obtain ⟨o, hwell, hwords⟩ := h
  obtain ⟨p, -, hp⟩ := o.exists_derives hwell hwords.symm
  exact ⟨p, p.run_of_derives_start hp⟩

section Run

variable {ts : List Token} {place : Place}

/-- What the reader has gone over begins a pattern. -/
theorem viable_of_run (hspelled : ∀ t ∈ ts, Spelled t.word)
    (hrun : Place.start.run ts = .ok place) : Viable (ts.map Token.word) := by
  obtain ⟨us, p, hus, hclose⟩ := place.closes
  refine ⟨us.map Token.word, ?_⟩
  rw [← List.map_append]
  refine complete_of_run (p := p) ?_ ?_
  · intro t ht
    rcases List.mem_append.mp ht with ht | ht
    · exact hspelled t ht
    · exact hus t ht
  · rw [Place.run_append, hrun, ok_bind, hclose]

/-- It is a whole pattern exactly if the reader is behind a complete one. -/
theorem complete_iff_of_run (hspelled : ∀ t ∈ ts, Spelled t.word)
    (hrun : Place.start.run ts = .ok place) :
    Complete (ts.map Token.word) ↔ ∃ p, place = .complete p := by
  constructor
  · intro hcomplete
    obtain ⟨p, hp⟩ := exists_run_of_complete hcomplete
    rw [hrun, Except.ok.injEq] at hp
    exact ⟨p, hp⟩
  · rintro ⟨p, rfl⟩
    exact complete_of_run hspelled hrun

/-- With one word more it begins a pattern exactly if the reader goes over that word
    as well. -/
theorem viable_append_iff_of_run (hspelled : ∀ t ∈ ts, Spelled t.word)
    (hrun : Place.start.run ts = .ok place) {t : Token} (ht : Spelled t.word) :
    Viable (ts.map Token.word ++ [t.word]) ↔ (place.next? t).isSome = true := by
  constructor
  · rintro ⟨more, hmore⟩
    have hwords : ts.map Token.word ++ [t.word] ++ more =
        (ts ++ t :: more.map Token.ofWord).map Token.word := by
      rw [List.map_append, List.map_cons, map_word_ofWord, List.append_assoc]
      rfl
    rw [hwords] at hmore
    obtain ⟨p, hp⟩ := exists_run_of_complete hmore
    rw [Place.run_append, hrun, ok_bind, Place.run] at hp
    cases hnext : place.next? t with
    | none =>
      rw [hnext] at hp
      cases hp
    | some next => rfl
  · intro hnext
    obtain ⟨next, hnext⟩ := Option.isSome_iff_exists.mp hnext
    have hrun' : Place.start.run (ts ++ [t]) = .ok next := by
      rw [Place.run_append, hrun, ok_bind, Place.run_cons hnext]
      rfl
    have hspelled' : ∀ u ∈ ts ++ [t], Spelled u.word := by
      intro u hu
      rcases List.mem_append.mp hu with hu | hu
      · exact hspelled u hu
      · rwa [List.mem_singleton.mp hu]
    have hviable := viable_of_run hspelled' hrun'
    rwa [List.map_append] at hviable

end Run

/-! ### What is looked for -/

theorem Place.begin?_isSome_iff (t : Token) (slots : List Slot) :
    (begin? t slots).isSome = true ↔ t.terminal ∈ .openBracket :: scalarTerminals := by
  unfold begin?
  cases t.terminal <;> simp [scalarTerminals]

/-- At a place that is not behind a complete pattern, the tokens that can come next are
    those of the terminals that are looked for. -/
theorem Place.next?_isSome_iff {place : Place} (h : ∀ p, place ≠ .complete p) (t : Token) :
    (place.next? t).isSome = true ↔ t.terminal ∈ place.lookedFor := by
  cases place with
  | start => exact begin?_isSome_iff t []
  | opened bracket outer =>
    have hbegin := begin?_isSome_iff t (.first bracket :: outer)
    cases ht : t.terminal <;> simp_all [next?, lookedFor, scalarTerminals]
  | afterComma a comma outer =>
    have hbegin := begin?_isSome_iff t (.next a comma :: outer)
    cases ht : t.terminal <;> simp_all [next?, lookedFor, scalarTerminals]
  | afterStar slot star outer =>
    cases ht : t.terminal <;> simp [next?, lookedFor, ht]
  | afterItem a outer =>
    cases ht : t.terminal <;> simp [next?, lookedFor, ht]
  | complete p => exact absurd rfl (h p)

end Destructure
