/-
  Destructure/Proofs/Pattern/Halting.lean
  =======================================
  **Where reading stops** — a text is refused in one of two ways. Either the reader
  stops on the way, at a token that cannot come next, at a character that starts none,
  or at the end of the text; then it has gone over all the tokens before, and what it
  stands at is the rest of the text (`readForm_halts`). Or the whole text has a form and
  one of its literals has no value; then all literals before that one have one
  (`Pattern.yields_traverse`). Both are said of the tokens, and carried over to the text
  by the places that the tokens have in it.
-/
import Destructure.Proofs.Pattern.Beginning

namespace Destructure

/-! ### On the way -/

/-- How reading stops at a place, where the rest of the text starts at the offset. -/
inductive Place.Halts (place : Place) (offset : Nat) : List Char → SyntaxFault → Prop
  | atEnd : (∀ p, place ≠ .complete p) →
      Place.Halts place offset [] (.unexpectedEnd offset (place.expected none))
  | atToken {t : Token} {rest : List Char} :
      t.start = offset → Spelled t.word → place.next? t = none →
      Place.Halts place offset (t.text ++ rest)
        (.unexpectedToken t (place.expected t.terminal))
  | atCharacter {c : Char} {rest : List Char} :
      isBlank c = false → takeLexeme? (c :: rest) = none →
      Place.Halts place offset (c :: rest)
        (.unexpectedCharacter offset c (place.expected none))

/-- A run stops at the first token that cannot come next. -/
theorem Place.run_eq_error {place : Place} {ts : List Token} {f : SyntaxFault}
    (h : place.run ts = .error f) :
    ∃ us t vs next, ts = us ++ t :: vs ∧ place.run us = .ok next ∧ next.next? t = none ∧
      f = .unexpectedToken t (next.expected t.terminal) := by
  induction ts generalizing place with
  | nil => cases h
  | cons t ts ih =>
    cases hnext : place.next? t with
    | none =>
      simp only [run, hnext, Except.error.injEq] at h
      exact ⟨[], t, ts, place, rfl, rfl, hnext, h.symm⟩
    | some next =>
      rw [run_cons hnext] at h
      obtain ⟨us, u, vs, last, rfl, hrun, hlast, hf⟩ := ih h
      exact ⟨t :: us, u, vs, last, rfl, by rw [run_cons hnext, hrun], hlast, hf⟩

theorem Place.finish_eq_error {place : Place} {length : Nat} {stray : Option (Nat × Char)}
    {f : SyntaxFault} (h : place.finish length stray = .error f) :
    (∃ offset c, stray = some (offset, c) ∧
        f = .unexpectedCharacter offset c (place.expected none)) ∨
      stray = none ∧ (∀ p, place ≠ .complete p) ∧
        f = .unexpectedEnd length (place.expected none) := by
  unfold finish at h
  split at h
  · next offset c =>
    simp only [Except.error.injEq] at h
    exact Or.inl ⟨offset, c, rfl, h.symm⟩
  · cases h
  · next hplace =>
    simp only [Except.error.injEq] at h
    exact Or.inr ⟨rfl, hplace, h.symm⟩

/-- The reader stops in the text behind tokens that it has gone over, and all of the text
    before that point is these tokens. -/
def HaltsIn (cs : List Char) (f : SyntaxFault) : Prop :=
  ∃ ts place front rest, cs = front ++ rest ∧ Spaced ((ts.map Token.word).map (·.2)) front ∧
    (∀ t ∈ ts, Spelled t.word) ∧ Place.start.run ts = .ok place ∧ place.Halts front.length rest f

section HaltsIn

variable {cs : List Char} {ts : List Token} {stray : Option (Nat × Char)} {f : SyntaxFault}

/-- The reader does not get behind the tokens of the text. -/
theorem haltsIn_of_run (htokens : tokensOf cs = ⟨ts, stray⟩)
    (hrun : Place.start.run ts = .error f) : HaltsIn cs f := by
  have hfuel : cs.length < cs.length + 1 := Nat.lt_succ_self _
  obtain ⟨us, t, vs, place, rfl, hus, hnext, rfl⟩ := Place.run_eq_error hrun
  obtain ⟨front, rest, fuel, rfl, hlaid, hspelled, hfuel, hrest⟩ := tokensFrom_append hfuel htokens
  obtain ⟨blanks, rest, -, rfl, hblanks, hstart, ht, -, -⟩ := tokensFrom_cons_inv hfuel hrest
  refine ⟨us, place, front ++ blanks, t.text ++ rest, ?_, hlaid.spaced hblanks, hspelled, hus,
    .atToken ?_ ht hnext⟩
  · rw [List.append_assoc]
  · rw [hstart, Nat.zero_add, List.length_append]

/-- The reader gets behind the tokens of the text, but cannot stop there. -/
theorem haltsIn_of_finish {place : Place} (htokens : tokensOf cs = ⟨ts, stray⟩)
    (hrun : Place.start.run ts = .ok place) (hfinish : place.finish cs.length stray = .error f) :
    HaltsIn cs f := by
  have hfuel : cs.length < cs.length + 1 := Nat.lt_succ_self _
  rw [tokensOf, ← List.append_nil ts] at htokens
  obtain ⟨front, rest, fuel, rfl, hlaid, hspelled, hfuel, hrest⟩ := tokensFrom_append hfuel htokens
  obtain ⟨blanks, rest, rfl, hblanks, hend⟩ := tokensFrom_nil_inv hfuel hrest
  refine ⟨ts, place, front ++ blanks, rest, ?_, hlaid.spaced hblanks, hspelled, hrun, ?_⟩
  · rw [List.append_assoc]
  · rcases Place.finish_eq_error hfinish with ⟨offset, c, hstray, rfl⟩ | ⟨hstray, hplace, rfl⟩
    · rcases hend with ⟨-, hnone⟩ | ⟨d, more, rfl, hsome, hd, hlexeme⟩
      · rw [hstray] at hnone
        cases hnone
      · rw [hstray, Option.some.injEq, Prod.mk.injEq] at hsome
        obtain ⟨rfl, rfl⟩ := hsome
        rw [Nat.zero_add, ← List.length_append]
        exact .atCharacter hd hlexeme
    · rcases hend with ⟨rfl, -⟩ | ⟨d, more, -, hsome, -⟩
      · rw [List.append_nil]
        exact .atEnd hplace
      · rw [hstray] at hsome
        cases hsome

end HaltsIn

/-- If a text is refused for its form, the reader stops in it. -/
theorem readForm_halts {cs : List Char} {f : SyntaxFault} (h : readForm cs = .error f) :
    HaltsIn cs f := by
  rw [readForm] at h
  generalize htokens : tokensOf cs = r at h
  obtain ⟨ts, stray⟩ := r
  dsimp only at h
  cases hrun : Place.start.run ts with
  | error f' =>
    rw [hrun, error_bind, Except.error.injEq] at h
    subst h
    exact haltsIn_of_run htokens hrun
  | ok place =>
    rw [hrun, ok_bind] at h
    exact haltsIn_of_finish htokens hrun h

/-! ### At a literal -/

/-- If the token writes a literal, that has a value. -/
def Token.Valued (t : Token) : Prop :=
  ∀ kind : LiteralKind, t.terminal = kind.terminal →
    ∃ v, (Lexeme.mk kind t.text).value = .ok v

/-- The fault is that of the first literal of the tokens that has no value. -/
def RefusedIn (ts : List Token) (f : SyntaxFault) : Prop :=
  ∃ us t vs, ∃ kind : LiteralKind, ∃ fault, ts = us ++ t :: vs ∧ (∀ u ∈ us, u.Valued) ∧
    t.terminal = kind.terminal ∧ (Lexeme.mk kind t.text).value = .error fault ∧
    f = .invalidLiteral t.extent fault

/-- All literals of the tokens have values, or the first that has none is the fault. -/
def Yields {α : Type} (ts : List Token) (r : Except SyntaxFault α) : Prop :=
  (∃ a, r = .ok a ∧ ∀ t ∈ ts, t.Valued) ∨ ∃ f, r = .error f ∧ RefusedIn ts f

theorem Token.valued_of_ne {t : Token} (h : ∀ kind : LiteralKind, t.terminal ≠ kind.terminal) :
    t.Valued :=
  fun kind hkind => absurd hkind (h kind)

theorem Token.valued_of_punctuation {t : Token} (h : t.terminal.isPunctuation = true) :
    t.Valued := by
  refine valued_of_ne fun kind hkind => ?_
  rw [hkind] at h
  cases kind <;> cases h

theorem Token.valued_of_name {t : Token} (h : t.terminal = .name) : t.Valued := by
  refine valued_of_ne fun kind hkind => ?_
  rw [h] at hkind
  cases kind <;> cases hkind

namespace RefusedIn

variable {ts us : List Token} {f : SyntaxFault}

theorem append_left (h : RefusedIn ts f) (us : List Token) : RefusedIn (ts ++ us) f := by
  obtain ⟨before, t, after, kind, fault, rfl, hbefore, ht, hvalue, rfl⟩ := h
  refine ⟨before, t, after ++ us, kind, fault, ?_, hbefore, ht, hvalue, rfl⟩
  rw [List.append_assoc, List.cons_append]

theorem append_right (hts : ∀ t ∈ ts, t.Valued) (h : RefusedIn us f) :
    RefusedIn (ts ++ us) f := by
  obtain ⟨before, t, after, kind, fault, rfl, hbefore, ht, hvalue, rfl⟩ := h
  refine ⟨ts ++ before, t, after, kind, fault, ?_, ?_, ht, hvalue, rfl⟩
  · rw [List.append_assoc]
  · intro u hu
    rcases List.mem_append.mp hu with hu | hu
    · exact hts u hu
    · exact hbefore u hu

end RefusedIn

namespace Yields

variable {α β : Type} {ts us : List Token}

theorem pure {a : α} (hts : ∀ t ∈ ts, t.Valued) : Yields ts (.ok a : Except SyntaxFault α) :=
  Or.inl ⟨a, rfl, hts⟩

/-- One behind the other: the second is looked at only if all is well with the first. -/
theorem bind {x : Except SyntaxFault α} {k : α → Except SyntaxFault β} (hx : Yields ts x)
    (hk : ∀ a, Yields us (k a)) : Yields (ts ++ us) (x >>= k) := by
  rcases hx with ⟨a, rfl, hts⟩ | ⟨f, rfl, hf⟩
  · rw [ok_bind]
    rcases hk a with ⟨b, hb, hus⟩ | ⟨f, hb, hf⟩
    · refine Or.inl ⟨b, hb, fun t ht => ?_⟩
      rcases List.mem_append.mp ht with ht | ht
      · exact hts t ht
      · exact hus t ht
    · exact Or.inr ⟨f, hb, hf.append_right hts⟩
  · exact Or.inr ⟨f, rfl, hf.append_left us⟩

theorem map {x : Except SyntaxFault α} (hx : Yields ts x) (k : α → β) :
    Yields ts (x >>= fun a => .ok (k a)) := by
  have hbind : Yields (ts ++ []) (x >>= fun a => .ok (k a)) := hx.bind fun a => pure (by simp)
  rwa [List.append_nil] at hbind

theorem cons {t : Token} {x : Except SyntaxFault α} (ht : t.terminal.isPunctuation = true)
    (hx : Yields ts x) : Yields (t :: ts) x := by
  have hfirst : Yields [t] (.ok () : Except SyntaxFault Unit) :=
    pure fun u hu => by rw [List.mem_singleton.mp hu]; exact Token.valued_of_punctuation ht
  exact hfirst.bind fun _ => hx

theorem append_singleton {t : Token} {x : Except SyntaxFault α} (hx : Yields ts x)
    (ht : t.terminal.isPunctuation = true) : Yields (ts ++ [t]) x := by
  have hlast : ∀ a, Yields [t] (.ok a : Except SyntaxFault α) := fun a =>
    pure fun u hu => by rw [List.mem_singleton.mp hu]; exact Token.valued_of_punctuation ht
  have hbind := hx.bind hlast
  cases x <;> exact hbind

end Yields

theorem LiteralKind.terminal_inj {a b : LiteralKind} : a.terminal = b.terminal ↔ a = b := by
  cases a <;> cases b <;> decide

theorem Lexeme.yields_valueAt {t : Token} {kind : LiteralKind} (ht : t.terminal = kind.terminal) :
    Yields [t] ((Lexeme.mk kind t.text).valueAt t.extent) := by
  cases hvalue : (Lexeme.mk kind t.text).value with
  | ok v =>
    refine Or.inl ⟨v, by rw [valueAt, hvalue], fun u hu kind' hkind => ?_⟩
    rw [List.mem_singleton.mp hu] at hkind ⊢
    rw [ht, LiteralKind.terminal_inj] at hkind
    exact ⟨v, by rw [← hkind, hvalue]⟩
  | error fault =>
    exact Or.inr ⟨_, by rw [valueAt, hvalue],
      [], t, [], kind, fault, rfl, by simp, ht, hvalue, rfl⟩

theorem Splat.yields {star t : Token} (hstar : star.terminal = .star) (ht : t.terminal = .name)
    {α : Type} (a : α) : Yields [star, t] (.ok a : Except SyntaxFault α) := by
  refine Yields.cons (by rw [hstar]; rfl) (.pure fun u hu => ?_)
  rw [List.mem_singleton.mp hu]
  exact Token.valued_of_name ht

mutual

/-- Putting the values in place of the literals comes to an end or fails at the first
    literal that has no value. -/
theorem Pattern.yields_traverse (p : Pattern Lexeme) {ts : List Token} (h : p.Derives ts) :
    Yields ts (p.traverse Lexeme.valueAt) := by
  cases p with
  | literal e l =>
    cases h with
    | literal ht => exact (Lexeme.yields_valueAt ht).map _
  | name n =>
    cases h with
    | name ht =>
      refine .pure fun u hu => ?_
      rw [List.mem_singleton.mp hu]
      exact Token.valued_of_name ht
  | empty e =>
    cases h with
    | empty ho hc =>
      exact .cons (by rw [ho]; rfl) (.cons (by rw [hc]; rfl) (.pure (by simp)))
  | array e es =>
    cases h with
    | array ho hes hc =>
      refine .cons (by rw [ho]; rfl) (.append_singleton ?_ (by rw [hc]; rfl))
      exact (es.yields_traverse hes).map _

theorem Elements.yields_traverse (es : Elements Lexeme) {ts : List Token} (h : es.Derives ts) :
    Yields ts (es.traverse Lexeme.valueAt) := by
  cases es with
  | one e i =>
    cases h with
    | one hi => exact (i.yields_traverse hi).map _
  | more e i c =>
    cases h with
    | more hi hc => exact (i.yields_traverse hi).bind fun j => (c.yields_traverse hc).map _

theorem Item.yields_traverse (i : Item Lexeme) {ts : List Token} (h : i.Derives ts) :
    Yields ts (i.traverse Lexeme.valueAt) := by
  cases i with
  | pattern p =>
    cases h with
    | pattern hp => exact (p.yields_traverse hp).map _
  | splat s =>
    cases h with
    | splat hstar ht => exact Splat.yields hstar ht _

theorem Chain.yields_traverse (c : Chain Lexeme) {ts : List Token} (h : c.Derives ts) :
    Yields ts (c.traverse Lexeme.valueAt) := by
  cases c with
  | link e i c =>
    cases h with
    | link hcomma hi hc =>
      refine Yields.cons (by rw [hcomma]; rfl) ?_
      exact (i.yields_traverse hi).bind fun j => (c.yields_traverse hc).map _
  | last e p =>
    cases h with
    | last hcomma hp => exact ((p.yields_traverse hp).map _).cons (by rw [hcomma]; rfl)
  | lastSplat e s =>
    cases h with
    | lastSplat hcomma hstar ht => exact (Splat.yields hstar ht _).cons (by rw [hcomma]; rfl)

end

end Destructure
