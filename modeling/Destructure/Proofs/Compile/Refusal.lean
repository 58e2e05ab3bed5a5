/-
  Destructure/Proofs/Compile/Refusal.lean
  =======================================
  **Where a text goes wrong** — a text that is refused has a diagnostic that names the
  first place where it goes wrong and says what is wrong there. If it is the text of a
  pattern, that is the leftmost literal without a value, from its beginning to its end.
  If it is not, what stands before the place is the beginning of a pattern, and what
  stands at the place is none of what can come next: the end of the text, a token, or a
  character that starts no token.
-/
import Destructure.Proofs.Compile.Rendering
import Destructure.Proofs.Pattern.Conversion
import Destructure.Proofs.Pattern.Halting

namespace Destructure

/-- The text is that of a pattern, whether or not its literals have values. -/
def Grammatical (source : String) : Prop := ∃ t : Outline Lexeme, t.Renders source

theorem grammatical_iff (source : String) :
    Grammatical source ↔ ∃ form, readForm source.toList = .ok form := by
  constructor
  · rintro ⟨t, ht⟩
    obtain ⟨form, hform, -⟩ := (readForm_eq_ok_iff source.toList t).mpr ht
    exact ⟨form, hform⟩
  · rintro ⟨form, hform⟩
    exact ⟨form.outline, (readForm_eq_ok_iff source.toList form.outline).mp ⟨form, hform, rfl⟩⟩

/-- The words that a text is read as are those of a pattern exactly if the text is. -/
theorem ReadAs.complete_iff {ws : List Word} {cs : List Char} (h : ReadAs ws cs) :
    Complete ws ↔ Grammatical (String.ofList cs) := by
  constructor
  · rintro ⟨t, hwell, rfl⟩
    refine ⟨t, hwell, ?_⟩
    rw [String.toList_ofList]
    exact h.2
  · rintro ⟨t, hwell, hspaced⟩
    rw [String.toList_ofList] at hspaced
    have hcomplete : Complete t.words := ⟨t, hwell, rfl⟩
    rwa [h.unique ⟨hcomplete.viable, hspaced⟩]

/-! ### At a literal -/

/-- In the text of a pattern the literal stands at the extent, behind the words. -/
inductive LiteralAt (source : String) : List Word → Lexeme → Extent → Prop
  | mk {before after : List Word} {front back : List Char} {l : Lexeme} :
      source.toList = front ++ (l.text ++ back) → Spaced (before.map (·.2)) front →
      Spaced (after.map (·.2)) back → Complete (before ++ (l.kind.terminal, l.text) :: after) →
      LiteralAt source before l ⟨front.length, front.length + l.text.length⟩

/-- The fault is that of the leftmost literal of the text that has no value, and spans
    this literal. -/
def SyntaxFault.AtLiteral (f : SyntaxFault) (source : String) : Prop :=
  ∃ before l extent fault, LiteralAt source before l extent ∧ f = .invalidLiteral extent fault ∧
    l.value = .error fault ∧ l.Fails fault ∧
    ∀ m : Lexeme, (m.kind.terminal, m.text) ∈ before → ∃ v, m.value = .ok v

theorem literalAt_of_laid {source : String} {us vs : List Token} {t : Token}
    {kind : LiteralKind} {front blanks : List Char} (hsource : source.toList = front ++ blanks)
    (hlaid : Laid 0 (us ++ t :: vs) front) (hblanks : Blanks blanks)
    (hcomplete : Complete ((us ++ t :: vs).map Token.word)) (ht : t.terminal = kind.terminal) :
    LiteralAt source (us.map Token.word) ⟨kind, t.text⟩ t.extent := by
  obtain ⟨lead, gap, rest, rfl, hlead, hgap, hstart, hrest⟩ := hlaid.split
  have hextent : t.extent = ⟨(lead ++ gap).length, (lead ++ gap).length + t.text.length⟩ := by
    rw [Token.extent, hstart, Nat.zero_add]
  have hword : t.word = (kind.terminal, t.text) := by rw [Token.word, ht]
  rw [hextent]
  refine .mk ?_ (hlead.spaced hgap) (hrest.spaced hblanks) ?_
  · rw [hsource]
    simp only [List.append_assoc]
  · rwa [List.map_append, List.map_cons, hword] at hcomplete

/-- A pattern whose form is read is refused for the leftmost literal without a value. -/
theorem atLiteral_of_traverse {source : String} {form : Pattern Lexeme} {f : SyntaxFault}
    (hform : readForm source.toList = .ok form)
    (htraverse : form.traverse Lexeme.valueAt = .error f) : f.AtLiteral source := by
  obtain ⟨ts, front, blanks, hsource, hlaid, hblanks, hspelled, hderives⟩ :=
    derives_of_readForm hform
  obtain ⟨hwords, hwell⟩ := form.words_of_derives hderives hspelled
  rcases form.yields_traverse hderives with ⟨p, hp, -⟩ | ⟨f', hf', hrefused⟩
  · rw [htraverse] at hp
    cases hp
  · rw [htraverse, Except.error.injEq] at hf'
    subst hf'
    obtain ⟨us, t, vs, kind, fault, rfl, hvalued, ht, hvalue, rfl⟩ := hrefused
    have hat := literalAt_of_laid hsource hlaid hblanks ⟨form.outline, hwell, hwords.symm⟩ ht
    have htext : t.text ∈ kind.terminal.lexemes := by
      rw [← ht]
      exact hspelled t (by simp)
    refine ⟨_, _, _, fault, hat, rfl, hvalue, Lexeme.fails_of_value htext hvalue, ?_⟩
    -- a literal before it is one of the tokens before it
    rintro ⟨kind', w⟩ hm
    obtain ⟨u, hu, hword⟩ := List.mem_map.mp hm
    obtain ⟨hterminal, rfl⟩ := word_eq_iff.mp hword
    exact hvalued u hu kind' hterminal

/-- The diagnostic is that of the leftmost literal of the text that has no value: it says
    why there is none, and its span is the literal. -/
def Diagnostic.TellsOfLiteral (d : Diagnostic) (source : String) : Prop :=
  ∃ before l extent fault, LiteralAt source before l extent ∧
    d.message = "invalid literal: " ++ fault.message ∧ d.span = some (extent.within source) ∧
    l.value = .error fault ∧ l.Fails fault ∧
    ∀ m : Lexeme, (m.kind.terminal, m.text) ∈ before → ∃ v, m.value = .ok v

theorem SyntaxFault.AtLiteral.tellsOfLiteral {source : String} {f : SyntaxFault}
    (h : f.AtLiteral source) (sourceName : String) :
    (f.diagnostic source sourceName).TellsOfLiteral source := by
  obtain ⟨before, l, extent, fault, hat, rfl, hvalue, hfails, hbefore⟩ := h
  exact ⟨before, l, extent, fault, hat, rfl, rfl, hvalue, hfails, hbefore⟩

/-! ### At a place -/

/-- The message is right about the rest of a text behind the characters `front`: nothing is
    left, or a token stands there that cannot come next, or a character at which no word of
    any terminal begins. -/
inductive Unexpected (front : List Char) : List Char → String → Prop
  | atEnd : Unexpected front [] "unexpected end of pattern"
  | atToken {w : Word} {rest : List Char} : Spelled w →
      (∀ ws, ReadAs ws front → ¬ Viable (ws ++ [w])) →
      Unexpected front (w.2 ++ rest) ("unexpected token `" ++ String.ofList w.2 ++ "`")
  | atCharacter {c : Char} {rest : List Char} : isBlank c = false →
      (∀ k : Terminal, ∀ w ∈ k.lexemes, ¬ w <+: c :: rest) →
      Unexpected front (c :: rest) ("unexpected character `" ++ String.singleton c ++ "`")

section Halts

variable {ts : List Token} {place : Place} {front rest : List Char} {f : SyntaxFault}

theorem Place.Halts.extent_eq (h : place.Halts front.length rest f) :
    f.extent = ⟨front.length, front.length + 1⟩ := by
  cases h with
  | atEnd hplace => rfl
  | atToken hstart ht hnext => rw [SyntaxFault.extent, hstart]
  | atCharacter hc hlexeme => rfl

theorem Place.Halts.unexpected (h : place.Halts front.length rest f)
    (hspelled : ∀ t ∈ ts, Spelled t.word) (hrun : Place.start.run ts = .ok place)
    (hread : ReadAs (ts.map Token.word) front) : Unexpected front rest f.message := by
  cases h with
  | atEnd hplace => exact .atEnd
  | @atToken t rest hstart ht hnext =>
    refine .atToken (w := t.word) ht ?_
    intro ws hws
    rw [hws.unique hread, viable_append_iff_of_run hspelled hrun ht, hnext]
    exact Bool.false_ne_true
  | @atCharacter c rest hc hlexeme =>
    refine .atCharacter hc ?_
    rintro k w hw ⟨after, hafter⟩
    rw [← hafter] at hlexeme
    exact not_mem_lexemes_of_takeLexeme? hlexeme k hw

end Halts

/-- A text is refused for a literal or for its form. -/
theorem refused_cases {source : String} {f : SyntaxFault} (h : Pattern.parse source = .error f) :
    (Grammatical source ∧ f.AtLiteral source) ∨ readForm source.toList = .error f := by
  rw [Pattern.parse] at h
  cases hform : readForm source.toList with
  | ok form =>
    rw [hform, ok_bind] at h
    exact Or.inl ⟨(grammatical_iff source).mpr ⟨form, hform⟩, atLiteral_of_traverse hform h⟩
  | error f' =>
    rw [hform, error_bind, Except.error.injEq] at h
    subst h
    exact Or.inr rfl

/-- A text that is refused is the text of a pattern or it is not. If it is, the diagnostic
    tells of its leftmost literal without a value, and spans that literal. If not, the
    diagnostic spans one place; what stands before the place begins the text of a pattern,
    and what stands there is as the message says. -/
theorem refusal_points {source : String} (sourceName : String) {f : SyntaxFault}
    (h : Pattern.parse source = .error f) :
    (Grammatical source ∧ (f.diagnostic source sourceName).TellsOfLiteral source) ∨
      (¬ Grammatical source ∧ ∃ front rest, source.toList = front ++ rest ∧
        (f.diagnostic source sourceName).span =
          some ⟨source, front.length, front.length + 1⟩ ∧
        (∃ ws, ReadAs ws front) ∧ (∃ more, Grammatical (String.ofList (front ++ more))) ∧
        Unexpected front rest (f.diagnostic source sourceName).message) := by
  rcases refused_cases h with ⟨hgrammatical, hat⟩ | hform
  · exact .inl ⟨hgrammatical, hat.tellsOfLiteral sourceName⟩
  obtain ⟨ts, place, front, rest, hsource, hspaced, hspelled, hrun, hhalts⟩ :=
    readForm_halts hform
  have hread : ReadAs (ts.map Token.word) front := ⟨viable_of_run hspelled hrun, hspaced⟩
  have hspan : (f.diagnostic source sourceName).span =
      some ⟨source, front.length, front.length + 1⟩ := by
    rw [SyntaxFault.diagnostic, hhalts.extent_eq]
    rfl
  refine .inr ⟨?_, front, rest, hsource, hspan, ⟨_, hread⟩, ?_,
    hhalts.unexpected hspelled hrun hread⟩
  · rw [grammatical_iff, hform]
    rintro ⟨form, hok⟩
    cases hok
  · obtain ⟨more, o, hwell, hmore⟩ := hread.continued
    refine ⟨more, o, hwell, ?_⟩
    rwa [String.toList_ofList]

/-- A comma too many in front of an escape that there is not, and two such escapes. -/
theorem refusal_points_comma_and_escape :
    (∃ front rest, "[1,, '\\d']".toList = front ++ rest ∧ front.length = 3 ∧
      Unexpected front rest "unexpected token `,`") ∧
    ∃ before l fault, LiteralAt "['\\d', '\\x']" before l ⟨1, 5⟩ ∧ l.Fails fault ∧
      "invalid literal: unknown escape `\\d`" = "invalid literal: " ++ fault.message := by
  have hcomma : ∃ es, Pattern.parse "[1,, '\\d']" =
      .error (.unexpectedToken ⟨.comma, 3, [',']⟩ es) := ⟨_, by cbv⟩
  have hescape : Pattern.parse "['\\d', '\\x']" =
      .error (.invalidLiteral ⟨1, 5⟩ (.unknownEscape 'd')) := by cbv
  have hnone : ∃ f, readForm "[1,, '\\d']".toList = .error f := ⟨_, by cbv⟩
  have hsome : ∃ form, readForm "['\\d', '\\x']".toList = .ok form := ⟨_, by cbv⟩
  refine ⟨?_, ?_⟩
  · obtain ⟨es, hcomma⟩ := hcomma
    rcases refusal_points "<pattern>" hcomma with ⟨hgrammatical, -⟩ |
      ⟨-, front, rest, hsource, hspan, -, -, hunexpected⟩
    · obtain ⟨f, hnone⟩ := hnone
      obtain ⟨form, hform⟩ := (grammatical_iff _).mp hgrammatical
      cases hnone.symm.trans hform
    · obtain ⟨-, hlength, -⟩ := Span.mk.inj (Option.some.inj hspan)
      exact ⟨front, rest, hsource, Int.ofNat.inj hlength.symm, hunexpected⟩
  · rcases refusal_points "<pattern>" hescape with
      ⟨-, before, l, ⟨start, stop⟩, fault, hat, hmessage, hspan, -, hfails, -⟩ | ⟨hnot, -⟩
    · obtain ⟨-, hstart, hstop⟩ := Span.mk.inj (Option.some.inj hspan)
      obtain rfl : 1 = start := Int.ofNat.inj hstart
      obtain rfl : 5 = stop := Int.ofNat.inj hstop
      exact ⟨before, l, fault, hat, hfails, hmessage⟩
    · exact absurd ((grammatical_iff _).mpr hsome) hnot

end Destructure
