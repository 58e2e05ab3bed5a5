/-
  Destructure/Proofs/Pattern/Derivation.lean
  ==========================================
  **The grammar of patterns** — which tokens a pattern tree is written with, one rule
  for each construct, extents included. The reader never looks back at what it has
  read; what makes it right is that the place it stands at, with the arrays open
  around it, is a derivation of the tokens behind it. `Place.Derives` is that
  invariant: a step keeps it (`Place.Derives.next`), so a run does
  (`Place.Derives.run`), and at a complete pattern it is the derivation of the whole.

  It misses none either: from every place that waits for a pattern the tokens of one
  lead behind it (`Pattern.run_of_derives`), by induction on the tree. As the reader has
  no choice, tokens are those of one pattern only.
-/
import Destructure.Pattern.Reader

namespace Destructure

/-- The terminal that a literal of the kind is a token of. -/
def LiteralKind.terminal : LiteralKind → Terminal
  | integer => .integer
  | float => .float
  | string => .string

/-! ### Rules -/

mutual

/-- The pattern is written with the tokens. -/
inductive Pattern.Derives : Pattern Lexeme → List Token → Prop
  | literal {t : Token} {kind : LiteralKind} :
      t.terminal = kind.terminal → Pattern.Derives (.literal t.extent ⟨kind, t.text⟩) [t]
  | name {t : Token} : t.terminal = .name → Pattern.Derives (.name t.name) [t]
  | empty {o c : Token} : o.terminal = .openBracket → c.terminal = .closeBracket →
      Pattern.Derives (.empty ⟨o.start, c.extent.stop⟩) [o, c]
  | array {o c : Token} {es : Elements Lexeme} {ts : List Token} :
      o.terminal = .openBracket → Elements.Derives es ts → c.terminal = .closeBracket →
      Pattern.Derives (.array ⟨o.start, c.extent.stop⟩ es) (o :: ts ++ [c])

/-- The items of an array are written with the tokens. -/
inductive Elements.Derives : Elements Lexeme → List Token → Prop
  | one {i : Item Lexeme} {ts : List Token} : Item.Derives i ts →
      Elements.Derives (.one ⟨i.extent.start, i.extent.stop⟩ i) ts
  | more {i : Item Lexeme} {c : Chain Lexeme} {ts us : List Token} :
      Item.Derives i ts → Chain.Derives c us →
      Elements.Derives (.more ⟨i.extent.start, c.extent.stop⟩ i c) (ts ++ us)

/-- The item is written with the tokens. -/
inductive Item.Derives : Item Lexeme → List Token → Prop
  | pattern {p : Pattern Lexeme} {ts : List Token} : Pattern.Derives p ts →
      Item.Derives (.pattern p) ts
  | splat {star t : Token} : star.terminal = .star → t.terminal = .name →
      Item.Derives (.splat (.ofToken star.start t)) [star, t]

/-- The chain is written with the tokens, its commas included. -/
inductive Chain.Derives : Chain Lexeme → List Token → Prop
  | link {comma : Token} {i : Item Lexeme} {c : Chain Lexeme} {ts us : List Token} :
      comma.terminal = .comma → Item.Derives i ts → Chain.Derives c us →
      Chain.Derives (.link ⟨comma.start, c.extent.stop⟩ i c) (comma :: ts ++ us)
  | last {comma : Token} {p : Pattern Lexeme} {ts : List Token} :
      comma.terminal = .comma → Pattern.Derives p ts →
      Chain.Derives (.last ⟨comma.start, p.extent.stop⟩ p) (comma :: ts)
  | lastSplat {comma star t : Token} :
      comma.terminal = .comma → star.terminal = .star → t.terminal = .name →
      Chain.Derives (.lastSplat ⟨comma.start, t.extent.stop⟩ (.ofToken star.start t))
        [comma, star, t]

end

/-! ### Places -/

/-- Further items of an open array, last first, are written with the tokens. -/
inductive FurtherDerives : List (Nat × Item Lexeme) → List Token → Prop
  | nil : FurtherDerives [] []
  | cons {earlier : List (Nat × Item Lexeme)} {comma : Token} {i : Item Lexeme}
      {ts us : List Token} :
      FurtherDerives earlier ts → comma.terminal = .comma → i.Derives us →
      FurtherDerives ((comma.start, i) :: earlier) (ts ++ comma :: us)

/-- An open array is written with the tokens. -/
inductive OpenArray.Derives : OpenArray → List Token → Prop
  | mk {o : Token} {first : Item Lexeme} {further : List (Nat × Item Lexeme)}
      {ts us : List Token} :
      o.terminal = .openBracket → first.Derives ts → FurtherDerives further us →
      Derives ⟨o.start, first, further⟩ (o :: ts ++ us)

/-- An open array up to a position that waits for an item is written with the
    tokens. -/
inductive Slot.Derives : Slot → List Token → Prop
  | first {o : Token} : o.terminal = .openBracket → Derives (.first o.start) [o]
  | next {a : OpenArray} {comma : Token} {ts : List Token} :
      a.Derives ts → comma.terminal = .comma → Derives (.next a comma.start) (ts ++ [comma])

/-- The slots of the arrays that are open, innermost first, are written with the
    tokens. -/
inductive OuterDerives : List Slot → List Token → Prop
  | nil : OuterDerives [] []
  | cons {slot : Slot} {outer : List Slot} {ts us : List Token} :
      OuterDerives outer ts → slot.Derives us → OuterDerives (slot :: outer) (ts ++ us)

/-- What has been read where the reader stands at the place. -/
inductive Place.Derives : Place → List Token → Prop
  | start : Derives .start []
  | opened {o : Token} {outer : List Slot} {ts : List Token} :
      OuterDerives outer ts → o.terminal = .openBracket →
      Derives (.opened o.start outer) (ts ++ [o])
  | afterComma {a : OpenArray} {comma : Token} {outer : List Slot} {ts us : List Token} :
      OuterDerives outer ts → a.Derives us → comma.terminal = .comma →
      Derives (.afterComma a comma.start outer) (ts ++ (us ++ [comma]))
  | afterStar {slot : Slot} {star : Token} {outer : List Slot} {ts us : List Token} :
      OuterDerives outer ts → slot.Derives us → star.terminal = .star →
      Derives (.afterStar slot star.start outer) (ts ++ us ++ [star])
  | afterItem {a : OpenArray} {outer : List Slot} {ts us : List Token} :
      OuterDerives outer ts → a.Derives us → Derives (.afterItem a outer) (ts ++ us)
  | complete {p : Pattern Lexeme} {ts : List Token} :
      p.Derives ts → Derives (.complete p) ts

/-! ### Closing an array -/

theorem Splat.extent_ofToken (star : Nat) (t : Token) :
    (Splat.ofToken star t).extent = ⟨star, t.extent.stop⟩ := by
  unfold Splat.ofToken
  split <;> rfl

theorem Chain.Derives.closing {comma : Token} {i : Item Lexeme} {ts : List Token}
    (hcomma : comma.terminal = .comma) (hi : i.Derives ts) :
    (Chain.closing ⟨comma.start, i.extent.stop⟩ i).Derives (comma :: ts) ∧
      (Chain.closing ⟨comma.start, i.extent.stop⟩ i).extent.stop = i.extent.stop := by
  cases hi with
  | pattern hp => exact ⟨.last hcomma hp, rfl⟩
  | @splat star t hstar ht =>
    refine ⟨?_, rfl⟩
    have hextent : (Splat.ofToken star.start t).extent.stop = t.extent.stop := by
      rw [Splat.extent_ofToken]
    simp only [Item.extent, hextent, Chain.closing]
    exact .lastSplat hcomma hstar ht

theorem Chain.Derives.prepend {stop : Nat} {earlier : List (Nat × Item Lexeme)}
    {c : Chain Lexeme} {ts us : List Token} (hearlier : FurtherDerives earlier ts)
    (hc : c.Derives us) (hstop : c.extent.stop = stop) :
    (Chain.prepend stop c earlier).Derives (ts ++ us) ∧
      (Chain.prepend stop c earlier).extent.stop = stop := by
  induction earlier generalizing c ts us with
  | nil =>
    cases hearlier
    exact ⟨hc, hstop⟩
  | cons x earlier ih =>
    cases hearlier with
    | @cons _ comma i ts vs hts hcomma hi =>
      rw [Chain.prepend, List.append_assoc]
      refine ih hts ?_ rfl
      have hlink := Chain.Derives.link hcomma hi hc
      rwa [hstop] at hlink

theorem OpenArray.Derives.elements {a : OpenArray} {ts : List Token} (h : a.Derives ts) :
    ∃ o us, o.terminal = .openBracket ∧ a.bracket = o.start ∧ ts = o :: us ∧
      a.elements.Derives us := by
  cases h with
  | @mk o first further us vs ho hfirst hfurther =>
    refine ⟨o, us ++ vs, ho, rfl, rfl, ?_⟩
    cases hfurther with
    | nil =>
      rw [List.append_nil]
      exact .one hfirst
    | @cons earlier comma i ws xs hearlier hcomma hi =>
      obtain ⟨hclosing, hstop⟩ := Chain.Derives.closing hcomma hi
      obtain ⟨hchain, hextent⟩ := Chain.Derives.prepend hearlier hclosing hstop
      have hmore := Elements.Derives.more hfirst hchain
      rw [hextent] at hmore
      exact hmore

theorem Slot.Derives.fill {slot : Slot} {i : Item Lexeme} {ts us : List Token}
    (h : slot.Derives ts) (hi : i.Derives us) : (slot.fill i).Derives (ts ++ us) := by
  cases h with
  | first ho =>
    have hopen := OpenArray.Derives.mk ho hi .nil
    rwa [List.append_nil] at hopen
  | @next a comma ts ha hcomma =>
    cases ha with
    | mk ho hfirst hfurther =>
      have hopen := OpenArray.Derives.mk ho hfirst (.cons hfurther hcomma hi)
      simpa [Slot.fill] using hopen

/-! ### The reader keeps a derivation -/

theorem Place.Derives.after {p : Pattern Lexeme} {slots : List Slot} {ts us : List Token}
    (hslots : OuterDerives slots ts) (hp : p.Derives us) :
    (Place.after p slots).Derives (ts ++ us) := by
  cases hslots with
  | nil => exact .complete hp
  | cons houter hslot =>
    rw [List.append_assoc]
    exact .afterItem houter (hslot.fill (.pattern hp))

theorem Place.Derives.begin {t : Token} {slots : List Slot} {ts : List Token} {place : Place}
    (hslots : OuterDerives slots ts) (h : Place.begin? t slots = some place) :
    place.Derives (ts ++ [t]) := by
  unfold Place.begin? at h
  cases ht : t.terminal <;> rw [ht] at h <;> simp only [Option.some.injEq, reduceCtorEq] at h
  case openBracket =>
    subst h
    exact .opened hslots ht
  case float =>
    subst h
    exact .after hslots (@Pattern.Derives.literal t .float ht)
  case integer =>
    subst h
    exact .after hslots (@Pattern.Derives.literal t .integer ht)
  case name =>
    subst h
    exact .after hslots (.name ht)
  case string =>
    subst h
    exact .after hslots (@Pattern.Derives.literal t .string ht)

/-- Going over a token extends the derivation by it. -/
theorem Place.Derives.next {place place' : Place} {ts : List Token} {t : Token}
    (h : place.Derives ts) (hnext : place.next? t = some place') :
    place'.Derives (ts ++ [t]) := by
  cases h with
  | start => exact .begin .nil hnext
  | @opened o outer ts houter ho =>
    have hbegin : Place.begin? t (.first o.start :: outer) = some place' →
        place'.Derives (ts ++ [o] ++ [t]) := fun hnext => .begin (.cons houter (.first ho)) hnext
    simp only [Place.next?] at hnext
    split at hnext
    · next ht =>
      simp only [Option.some.injEq] at hnext
      subst hnext
      rw [List.append_assoc]
      exact .after houter (.empty ho ht)
    · next ht =>
      simp only [Option.some.injEq] at hnext
      subst hnext
      exact .afterStar houter (.first ho) ht
    · exact hbegin hnext
  | @afterComma a comma outer ts us houter ha hcomma =>
    simp only [Place.next?] at hnext
    split at hnext
    · next ht =>
      simp only [Option.some.injEq] at hnext
      subst hnext
      exact .afterStar houter (.next ha hcomma) ht
    · exact .begin (.cons houter (.next ha hcomma)) hnext
  | @afterStar slot star outer ts us houter hslot hstar =>
    simp only [Place.next?] at hnext
    split at hnext
    · next ht =>
      simp only [Option.some.injEq] at hnext
      subst hnext
      rw [List.append_assoc, List.append_assoc]
      exact .afterItem houter (hslot.fill (.splat hstar ht))
    · cases hnext
  | @afterItem a outer ts us houter ha =>
    simp only [Place.next?] at hnext
    split at hnext
    · next ht =>
      simp only [Option.some.injEq] at hnext
      subst hnext
      rw [List.append_assoc]
      exact .afterComma houter ha ht
    · next ht =>
      simp only [Option.some.injEq] at hnext
      subst hnext
      obtain ⟨o, vs, ho, hbracket, rfl, helements⟩ := ha.elements
      rw [List.append_assoc, hbracket]
      exact .after houter (.array ho helements ht)
    · cases hnext
  | complete hp => cases hnext

/-- Going over tokens extends the derivation by them. -/
theorem Place.Derives.run {place place' : Place} {ts us : List Token}
    (h : place.Derives ts) (hrun : place.run us = .ok place') : place'.Derives (ts ++ us) := by
  induction us generalizing place ts with
  | nil =>
    simp only [Place.run, Except.ok.injEq] at hrun
    subst hrun
    rwa [List.append_nil]
  | cons t us ih =>
    simp only [Place.run] at hrun
    split at hrun
    · cases hrun
    · next place₁ hnext =>
      have hrest := ih (h.next hnext) hrun
      rwa [List.append_assoc] at hrest

/-! ### The reader goes over a derivation -/

/-- The place waits for a pattern that the slots then take. -/
inductive Place.Awaits : Place → List Slot → Prop
  | start : Awaits .start []
  | opened (bracket : Nat) (outer : List Slot) :
      Awaits (.opened bracket outer) (.first bracket :: outer)
  | afterComma (a : OpenArray) (comma : Nat) (outer : List Slot) :
      Awaits (.afterComma a comma outer) (.next a comma :: outer)

/-- Behind a token that can come next, the run goes on from the next place. -/
theorem Place.run_cons {place place' : Place} {t : Token} (h : place.next? t = some place')
    (ts : List Token) : place.run (t :: ts) = place'.run ts := by
  simp only [Place.run, h]

theorem Place.Awaits.next_begin {place : Place} {slots : List Slot} (h : place.Awaits slots)
    {t : Token} (hclose : t.terminal ≠ .closeBracket) (hstar : t.terminal ≠ .star) :
    place.next? t = Place.begin? t slots := by
  cases h with
  | start => rfl
  | opened bracket outer => simp only [Place.next?]
  | afterComma a comma outer => simp only [Place.next?]

theorem Place.Awaits.next_open {place : Place} {slots : List Slot} (h : place.Awaits slots)
    {t : Token} (ht : t.terminal = .openBracket) :
    place.next? t = some (.opened t.start slots) := by
  have hclose : t.terminal ≠ .closeBracket := by simp [ht]
  have hstar : t.terminal ≠ .star := by simp [ht]
  rw [h.next_begin hclose hstar, Place.begin?, ht]

theorem Place.Awaits.next_star {place : Place} {slot : Slot} {outer : List Slot}
    (h : place.Awaits (slot :: outer)) {t : Token} (ht : t.terminal = .star) :
    place.next? t = some (.afterStar slot t.start outer) := by
  cases h with
  | opened bracket outer => simp only [Place.next?, ht]
  | afterComma a comma outer => simp only [Place.next?, ht]

theorem Place.begin_literal {t : Token} {kind : LiteralKind} (ht : t.terminal = kind.terminal)
    (slots : List Slot) :
    Place.begin? t slots = some (.after (.literal t.extent ⟨kind, t.text⟩) slots) := by
  cases kind <;> simp only [Place.begin?, ht, LiteralKind.terminal]

/-- The items of a chain from the first on, each with the offset of its comma. -/
def Chain.further {α : Type} : Chain α → List (Nat × Item α)
  | link e i c => (e.start, i) :: c.further
  | last e p => [(e.start, .pattern p)]
  | lastSplat e s => [(e.start, .splat s)]

/-- An array with further items behind those it has. -/
def OpenArray.extend (a : OpenArray) (items : List (Nat × Item Lexeme)) : OpenArray :=
  { a with further := items.reverse ++ a.further }

/-- The array of the elements before its closing bracket. -/
def Elements.reopen (bracket : Nat) : Elements Lexeme → OpenArray
  | one _ i => ⟨bracket, i, []⟩
  | more _ i c => (OpenArray.mk bracket i []).extend c.further

/-- A chain that is taken apart into its items is put together again. -/
theorem Chain.prepend_further (c : Chain Lexeme) {ts : List Token} (h : c.Derives ts)
    (earlier : List (Nat × Item Lexeme)) :
    ∃ comma item before, c.further.reverse = (comma, item) :: before ∧
      item.extent.stop = c.extent.stop ∧
      prepend c.extent.stop (closing ⟨comma, c.extent.stop⟩ item) (before ++ earlier) =
        prepend c.extent.stop c earlier := by
  cases c with
  | link e i c =>
    cases h with
    | @link comma _ _ ts us hcomma hi hc =>
      obtain ⟨comma', item, before, hreverse, hstop, hprepend⟩ :=
        c.prepend_further hc ((comma.start, i) :: earlier)
      refine ⟨comma', item, before ++ [(comma.start, i)], ?_, hstop, ?_⟩
      · rw [further, List.reverse_cons, hreverse, List.cons_append]
      · rw [List.append_assoc]
        exact hprepend
  | last e p =>
    cases h with
    | last hcomma hp => exact ⟨_, _, [], rfl, rfl, rfl⟩
  | lastSplat e s =>
    cases h with
    | @lastSplat comma star t hcomma hstar ht =>
      refine ⟨_, _, [], rfl, ?_, rfl⟩
      rw [Item.extent, Splat.extent_ofToken]
      rfl

theorem Elements.elements_reopen (es : Elements Lexeme) {ts : List Token} (h : es.Derives ts)
    (bracket : Nat) : (es.reopen bracket).elements = es := by
  cases es with
  | one e i =>
    cases h with
    | one hi => rfl
  | more e i c =>
    cases h with
    | more hi hc =>
      obtain ⟨comma, item, before, hreverse, hstop, hprepend⟩ := c.prepend_further hc []
      rw [List.append_nil] at hprepend
      simp only [reopen, OpenArray.extend, OpenArray.elements, OpenArray.stop, hreverse,
        List.append_nil, hstop, hprepend]
      rfl

theorem Elements.bracket_reopen (es : Elements Lexeme) (bracket : Nat) :
    (es.reopen bracket).bracket = bracket := by
  cases es <;> rfl

mutual

/-- From a place that waits for a pattern, the tokens of one lead behind it. -/
theorem Pattern.run_of_derives (p : Pattern Lexeme) {ts : List Token} (h : p.Derives ts)
    {place : Place} {slots : List Slot} (hawaits : place.Awaits slots) (more : List Token) :
    place.run (ts ++ more) = (Place.after p slots).run more := by
  cases p with
  | literal e l =>
    cases h with
    | @literal t kind ht =>
      refine Place.run_cons ?_ more
      rw [hawaits.next_begin, Place.begin_literal ht]
      · rw [ht]
        cases kind <;> decide
      · rw [ht]
        cases kind <;> decide
  | name n =>
    cases h with
    | @name t ht =>
      refine Place.run_cons ?_ more
      rw [hawaits.next_begin (by rw [ht]; decide) (by rw [ht]; decide), Place.begin?, ht]
  | empty e =>
    cases h with
    | @empty o c ho hc =>
      rw [List.cons_append, Place.run_cons (hawaits.next_open ho)]
      refine Place.run_cons ?_ more
      simp only [Place.next?, hc]
  | array e es =>
    cases h with
    | @array o c _ ts ho hes hc =>
      rw [List.append_assoc, List.cons_append, Place.run_cons (hawaits.next_open ho),
        es.run_of_derives hes]
      refine Place.run_cons ?_ more
      simp only [Place.next?, hc, es.elements_reopen hes, es.bracket_reopen]

theorem Elements.run_of_derives (es : Elements Lexeme) {ts : List Token} (h : es.Derives ts)
    (bracket : Nat) (outer : List Slot) (more : List Token) :
    (Place.opened bracket outer).run (ts ++ more) =
      (Place.afterItem (es.reopen bracket) outer).run more := by
  cases es with
  | one e i =>
    cases h with
    | one hi => exact i.run_of_derives hi (.opened bracket outer) more
  | more e i c =>
    cases h with
    | more hi hc =>
      rw [List.append_assoc, i.run_of_derives hi (.opened bracket outer), c.run_of_derives hc]
      rfl

theorem Item.run_of_derives (i : Item Lexeme) {ts : List Token} (h : i.Derives ts)
    {place : Place} {slot : Slot} {outer : List Slot} (hawaits : place.Awaits (slot :: outer))
    (more : List Token) :
    place.run (ts ++ more) = (Place.afterItem (slot.fill i) outer).run more := by
  cases i with
  | pattern p =>
    cases h with
    | pattern hp => exact p.run_of_derives hp hawaits more
  | splat s =>
    cases h with
    | @splat star t hstar ht =>
      rw [List.cons_append, Place.run_cons (hawaits.next_star hstar)]
      refine Place.run_cons ?_ more
      simp only [Place.next?, ht]

theorem Chain.run_of_derives (c : Chain Lexeme) {ts : List Token} (h : c.Derives ts)
    (a : OpenArray) (outer : List Slot) (more : List Token) :
    (Place.afterItem a outer).run (ts ++ more) =
      (Place.afterItem (a.extend c.further) outer).run more := by
  have hnext : ∀ {comma : Token}, comma.terminal = .comma →
      (Place.afterItem a outer).next? comma = some (.afterComma a comma.start outer) := by
    intro comma hcomma
    simp only [Place.next?, hcomma]
  cases c with
  | link e i c =>
    cases h with
    | @link comma _ _ ts us hcomma hi hc =>
      rw [List.append_assoc, List.cons_append, Place.run_cons (hnext hcomma),
        i.run_of_derives hi (.afterComma a comma.start outer), c.run_of_derives hc]
      simp only [OpenArray.extend, Slot.fill, Chain.further, List.reverse_cons,
        List.append_assoc, List.singleton_append]
  | last e p =>
    cases h with
    | @last comma _ ts hcomma hp =>
      rw [List.cons_append, Place.run_cons (hnext hcomma)]
      exact p.run_of_derives hp (.afterComma a comma.start outer) more
  | lastSplat e s =>
    cases h with
    | @lastSplat comma star t hcomma hstar ht =>
      have hawaits := Place.Awaits.afterComma a comma.start outer
      rw [List.cons_append, Place.run_cons (hnext hcomma), List.cons_append,
        Place.run_cons (hawaits.next_star hstar)]
      refine Place.run_cons ?_ more
      simp only [Place.next?, ht]
      rfl

end

theorem Pattern.run_of_derives_start (p : Pattern Lexeme) {ts : List Token} (h : p.Derives ts) :
    Place.start.run ts = .ok (.complete p) := by
  have hrun := p.run_of_derives h .start []
  rwa [List.append_nil] at hrun

/-- Tokens are those of one pattern only. -/
theorem Pattern.Derives.unique {p q : Pattern Lexeme} {ts : List Token} (hp : p.Derives ts)
    (hq : q.Derives ts) : p = q := by
  have hrun := p.run_of_derives_start hp
  rw [q.run_of_derives_start hq, Except.ok.injEq, Place.complete.injEq] at hrun
  exact hrun.symm

end Destructure
