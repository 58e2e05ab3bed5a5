/-
  Destructure/Proofs/Compile/Expectation.lean
  ===========================================
  **What is said to be expected** — a diagnostic of a text that goes wrong lists what
  could have come instead. As long as the reader is not behind a complete pattern, the
  list is right: it has the terminals with which the words so far go on to a pattern, and
  no others (`Place.truthful_of_incomplete`). Behind a complete pattern only the end can
  come. The list says so where a comma or a closing bracket stands instead; for anything
  else that stands there it has those two, neither of which can come, and not the end.
-/
import Destructure.Proofs.Compile.Refusal

namespace Destructure

/-- The list has the terminals a word of which can come behind the words of a text, no
    others, and the end exactly if the text is that of a pattern. -/
def Truthful (front : List Char) (es : List Expectation) : Prop :=
  (∀ k, .terminal k ∈ es ↔ ∃ ws, ∃ w ∈ k.lexemes, ReadAs ws front ∧ Viable (ws ++ [(k, w)])) ∧
    (.endOfPattern ∈ es ↔ Grammatical (String.ofList front))

theorem truthful_iff {ws : List Word} {front : List Char} (h : ReadAs ws front)
    (es : List Expectation) :
    Truthful front es ↔ (∀ k, .terminal k ∈ es ↔ ∃ w ∈ k.lexemes, Viable (ws ++ [(k, w)])) ∧
      (.endOfPattern ∈ es ↔ Complete ws) := by
  have hwords : ∀ k, (∃ us, ∃ w ∈ Terminal.lexemes k, ReadAs us front ∧ Viable (us ++ [(k, w)])) ↔
      ∃ w ∈ k.lexemes, Viable (ws ++ [(k, w)]) := by
    intro k
    constructor
    · rintro ⟨us, w, hw, hus, hviable⟩
      rw [hus.unique h] at hviable
      exact ⟨w, hw, hviable⟩
    · rintro ⟨w, hw, hviable⟩
      exact ⟨ws, w, hw, h, hviable⟩
  rw [Truthful, h.complete_iff]
  simp only [hwords]

/-- What is found instead of what was expected is a comma or a closing bracket. -/
def SyntaxFault.AtSeparator (f : SyntaxFault) : Prop :=
  ∃ t es, f = .unexpectedToken t es ∧ (t.terminal = .comma ∨ t.terminal = .closeBracket)

/-! ### At a place -/

section Run

variable {ts : List Token} {place : Place} {front : List Char}

/-- On the way the reader looks for what can come. -/
theorem Place.truthful_of_incomplete (hspelled : ∀ t ∈ ts, Spelled t.word)
    (hrun : Place.start.run ts = .ok place) (hplace : ∀ p, place ≠ .complete p)
    (hread : ReadAs (ts.map Token.word) front) :
    Truthful front (place.lookedFor.map .terminal) := by
  rw [truthful_iff hread]
  refine ⟨?_, ?_⟩
  · intro k
    have hmem : .terminal k ∈ place.lookedFor.map Expectation.terminal ↔ k ∈ place.lookedFor := by
      simp
    rw [hmem]
    constructor
    · intro hk
      obtain ⟨w, hw⟩ := k.exists_lexeme
      let t : Token := .ofWord (k, w)
      have hnext : (place.next? t).isSome = true := (next?_isSome_iff hplace t).mpr hk
      exact ⟨w, hw, (viable_append_iff_of_run hspelled hrun (t := t) hw).mpr hnext⟩
    · rintro ⟨w, hw, hviable⟩
      let t : Token := .ofWord (k, w)
      have hnext := (viable_append_iff_of_run hspelled hrun (t := t) hw).mp hviable
      exact (next?_isSome_iff hplace t).mp hnext
  · rw [complete_iff_of_run hspelled hrun]
    constructor
    · intro hend
      simp at hend
    · rintro ⟨p, hp⟩
      exact absurd hp (hplace p)

/-- Behind a complete pattern no word can come. -/
theorem not_viable_of_complete {p : Pattern Lexeme} (hspelled : ∀ t ∈ ts, Spelled t.word)
    (hrun : Place.start.run ts = .ok (.complete p)) (w : Word) :
    ¬ Viable (ts.map Token.word ++ [w]) := by
  intro hviable
  have hw : Spelled (Token.ofWord w).word := hviable.spelled w (by simp)
  have hnext := (viable_append_iff_of_run hspelled hrun hw).mp hviable
  cases hnext

theorem truthful_end_of_complete {p : Pattern Lexeme} (hspelled : ∀ t ∈ ts, Spelled t.word)
    (hrun : Place.start.run ts = .ok (.complete p)) (hread : ReadAs (ts.map Token.word) front) :
    Truthful front [.endOfPattern] := by
  rw [truthful_iff hread]
  refine ⟨?_, ?_⟩
  · intro k
    constructor
    · intro hk
      simp at hk
    · rintro ⟨w, -, hviable⟩
      exact absurd hviable (not_viable_of_complete hspelled hrun (k, w))
  · rw [complete_iff_of_run hspelled hrun]
    simp

end Run

theorem Place.expected_of_incomplete {place : Place} (hplace : ∀ p, place ≠ .complete p)
    (found : Option Terminal) : place.expected found = place.lookedFor.map .terminal := by
  unfold expected
  split
  · exact absurd rfl (hplace _)
  · rfl

/-- What is listed is in the order of its wording, and nothing is listed twice. -/
theorem Place.pairwise_expected (place : Place) (found : Option Terminal) :
    ((place.expected found).map Expectation.wording).Pairwise (· < ·) := by
  have hlooked : ((place.lookedFor.map Expectation.terminal).map Expectation.wording).Pairwise
      (· < ·) := by
    cases place <;> simp only [lookedFor] <;> decide
  unfold expected
  split
  · split
    · exact List.pairwise_singleton _ _
    · exact hlooked
  · exact hlooked

/-! ### In a diagnostic -/

theorem SyntaxFault.note_diagnostic {f : SyntaxFault} (hne : f.expected ≠ [])
    (source sourceName : String) : (f.diagnostic source sourceName).note =
      some ("expected one of: " ++ ", ".intercalate (f.expected.map Expectation.wording)) := by
  have hempty : f.expected.isEmpty = false := by simpa using hne
  simp only [diagnostic, hempty, Bool.false_eq_true, if_false]

theorem Place.expected_ne_nil (place : Place) (found : Option Terminal) :
    place.expected found ≠ [] := by
  unfold expected
  split
  · split
    · exact List.cons_ne_nil _ _
    · exact List.cons_ne_nil _ _
  · cases place <;> exact List.cons_ne_nil _ _

/-- A fault lists what is expected at the place where the reader stops, given the token
    that it has found there. -/
theorem Place.Halts.exists_found {place : Place} {offset : Nat} {rest : List Char}
    {f : SyntaxFault} (h : place.Halts offset rest f) :
    ∃ found, f.expected = place.expected found ∧
      (f.AtSeparator ↔ found = some .comma ∨ found = some .closeBracket) := by
  cases h with
  | atEnd hplace =>
    refine ⟨none, rfl, ?_⟩
    simp [SyntaxFault.AtSeparator]
  | @atToken t rest hstart ht hnext =>
    refine ⟨some t.terminal, rfl, ?_⟩
    simp [SyntaxFault.AtSeparator]
  | atCharacter hc hlexeme =>
    refine ⟨none, rfl, ?_⟩
    simp [SyntaxFault.AtSeparator]

theorem Place.expected_of_separator {p : Pattern Lexeme} {found : Option Terminal}
    (h : found = some .comma ∨ found = some .closeBracket) :
    (Place.complete p).expected found = [.endOfPattern] := by
  rcases h with rfl | rfl <;> rfl

theorem Place.expected_of_not_separator {p : Pattern Lexeme} {found : Option Terminal}
    (h : ¬ (found = some .comma ∨ found = some .closeBracket)) :
    (Place.complete p).expected found = [.terminal .comma, .terminal .closeBracket] := by
  cases found with
  | none => rfl
  | some t => cases t <;> simp_all [expected, lookedFor]

/-- A text that goes wrong at a place has a note that lists what is expected there, in
    the order of the wording. The list has what can come behind the text before the place
    and nothing else, unless that text is a whole pattern and neither a comma nor a
    closing bracket stands behind it: then it has these two, and no word can come. -/
theorem note_lists_what_can_come {source : String} (sourceName : String) {f : SyntaxFault}
    (h : Pattern.parse source = .error f) (hplace : ∀ e fault, f ≠ .invalidLiteral e fault) :
    ∃ front rest, source.toList = front ++ rest ∧
      f.extent = ⟨front.length, front.length + 1⟩ ∧ (∃ ws, ReadAs ws front) ∧
      (f.diagnostic source sourceName).note =
        some ("expected one of: " ++ ", ".intercalate (f.expected.map Expectation.wording)) ∧
      (f.expected.map Expectation.wording).Pairwise (· < ·) ∧
      ((Grammatical (String.ofList front) → f.AtSeparator) → Truthful front f.expected) ∧
      (Grammatical (String.ofList front) → ¬ f.AtSeparator →
        f.expected = [.terminal .comma, .terminal .closeBracket] ∧
          ∀ ws w, ReadAs ws front → ¬ Viable (ws ++ [w])) := by
  have hform : readForm source.toList = .error f := by
    refine (refused_cases h).resolve_left ?_
    rintro ⟨-, before, l, extent, fault, -, hliteral, -⟩
    exact hplace extent fault hliteral
  obtain ⟨ts, place, front, rest, hsource, hspaced, hspelled, hrun, hhalts⟩ :=
    readForm_halts hform
  obtain ⟨found, hexpected, hseparator⟩ := hhalts.exists_found
  have hread : ReadAs (ts.map Token.word) front := ⟨viable_of_run hspelled hrun, hspaced⟩
  have hwhole : Grammatical (String.ofList front) ↔ ∃ p, place = .complete p := by
    rw [← hread.complete_iff, complete_iff_of_run hspelled hrun]
  refine ⟨front, rest, hsource, hhalts.extent_eq, ⟨_, hread⟩,
    f.note_diagnostic ?_ source sourceName, ?_, ?_, ?_⟩
  · rw [hexpected]
    exact place.expected_ne_nil found
  · rw [hexpected]
    exact place.pairwise_expected found
  · intro hat
    rw [hexpected]
    by_cases hcomplete : ∃ p, place = .complete p
    · have hfound := hseparator.mp (hat (hwhole.mpr hcomplete))
      obtain ⟨p, rfl⟩ := hcomplete
      rw [Place.expected_of_separator hfound]
      exact truthful_end_of_complete hspelled hrun hread
    · have hway : ∀ p, place ≠ .complete p := fun p hp => hcomplete ⟨p, hp⟩
      rw [Place.expected_of_incomplete hway]
      exact Place.truthful_of_incomplete hspelled hrun hway hread
  · intro hgrammatical hnot
    obtain ⟨p, rfl⟩ := hwhole.mp hgrammatical
    rw [hseparator] at hnot
    rw [hexpected, Place.expected_of_not_separator hnot]
    refine ⟨rfl, fun ws w hws => ?_⟩
    rw [hws.unique hread]
    exact not_viable_of_complete hspelled hrun w

/-- Of two texts with a token too many, one has an array open before it and one a whole
    pattern. Both are told of a comma and a closing bracket; behind `1` neither can come. -/
theorem note_lists_what_can_come_digits :
    (∃ f, Pattern.parse "[1 2]" = .error f ∧
      f.expected = [.terminal .comma, .terminal .closeBracket] ∧
      Truthful ['[', '1', ' '] f.expected) ∧
    ∃ f, Pattern.parse "1 2" = .error f ∧
      f.expected = [.terminal .comma, .terminal .closeBracket] ∧
      ∀ ws w, ReadAs ws ['1', ' '] → ¬ Viable (ws ++ [w]) := by
  have hfront : ∀ {source : String} {front rest : List Char} {n : Nat},
      source.toList = front ++ rest → (⟨n, n + 1⟩ : Extent) = ⟨front.length, front.length + 1⟩ →
      front = source.toList.take n := by
    intro source front rest n hsource hextent
    rw [Extent.mk.injEq] at hextent
    rw [hsource, hextent.1, List.take_left]
  have hfirst : Pattern.parse "[1 2]" = .error (.unexpectedToken ⟨.integer, 3, ['2']⟩
      [.terminal .comma, .terminal .closeBracket]) := by cbv
  have hsecond : Pattern.parse "1 2" = .error (.unexpectedToken ⟨.integer, 2, ['2']⟩
      [.terminal .comma, .terminal .closeBracket]) := by cbv
  refine ⟨⟨_, hfirst, rfl, ?_⟩, _, hsecond, rfl, ?_⟩
  · obtain ⟨front, rest, hsource, hextent, -, -, -, htruthful, -⟩ :=
      note_lists_what_can_come "<pattern>" hfirst (by simp)
    obtain rfl := hfront hsource hextent
    refine htruthful fun hgrammatical => ?_
    have hopen : ∃ f, readForm ['[', '1', ' '] = .error f := ⟨_, by cbv⟩
    obtain ⟨f, hopen⟩ := hopen
    obtain ⟨form, hform⟩ := (grammatical_iff _).mp hgrammatical
    rw [String.toList_ofList] at hform
    cases hopen.symm.trans hform
  · obtain ⟨front, rest, hsource, hextent, -, -, -, -, hnone⟩ :=
      note_lists_what_can_come "<pattern>" hsecond (by simp)
    obtain rfl := hfront hsource hextent
    refine (hnone ?_ ?_).2
    · have hwhole : ∃ form, readForm ['1', ' '] = .ok form := ⟨_, by cbv⟩
      rw [grammatical_iff, String.toList_ofList]
      exact hwhole
    · simp [SyntaxFault.AtSeparator]

end Destructure
