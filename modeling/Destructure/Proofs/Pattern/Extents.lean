/-
  Destructure/Proofs/Pattern/Extents.lean
  =======================================
  **Where the parts of a pattern stand** — a part is written with a stretch of the tokens
  of the text, and its extent is from the start of the first to the end of the last. The
  children of a part take stretches of it, one behind the other. All else follows from
  the places of the tokens: extents are nested and in order, what a part spans looks like
  the part, and the text that a pattern spans is read as the same pattern, at the
  beginning of a text of its own.
-/
import Mathlib
import Destructure.Proofs.Pattern.Beginning
import Destructure.Proofs.Pattern.Order
import Destructure.Proofs.Pattern.Parts
import Destructure.Proofs.Pattern.Shift

namespace Destructure

/-! ### Parts and tokens -/

/-- The part is written with the tokens. -/
def Part.Derives : Part Lexeme → List Token → Prop
  | pattern p, ts => p.Derives ts
  | elements es, ts => es.Derives ts
  | chain c, ts => c.Derives ts
  | splat s, ts => (Item.splat s).Derives ts

theorem Item.Derives.part {i : Item Lexeme} {ts : List Token} (h : i.Derives ts) :
    i.part.Derives ts := by
  cases i with
  | pattern p =>
    cases h with
    | pattern hp => exact hp
  | splat s => exact h

theorem Item.derives_splat_inv {s : Splat} {ts : List Token} (h : (Item.splat s).Derives ts) :
    ∃ star t, star.terminal = .star ∧ t.terminal = .name ∧ s = .ofToken star.start t ∧
      ts = [star, t] := by
  cases h with
  | splat hstar ht => exact ⟨_, _, hstar, ht, rfl, rfl⟩

theorem Chain.derives_cons_inv {c : Chain Lexeme} {ts : List Token} (h : c.Derives ts) :
    ∃ comma us, ts = comma :: us ∧ comma.terminal = .comma ∧ c.extent.start = comma.start := by
  cases h with
  | link hcomma _ _ => exact ⟨_, _, rfl, hcomma, rfl⟩
  | last hcomma _ => exact ⟨_, _, rfl, hcomma, rfl⟩
  | lastSplat hcomma _ _ => exact ⟨_, _, rfl, hcomma, rfl⟩

/-- The parts are written with stretches of the tokens, one behind the other, where `W`
    says which tokens a part is written with. -/
inductive WrittenWithin {α : Type} (W : Part α → List Token → Prop) :
    List (Part α) → List Token → Prop
  | nil (ts : List Token) : WrittenWithin W [] ts
  | cons {a : Part α} {as : List (Part α)} {ts us : List Token} (gap : List Token) :
      W a ts → WrittenWithin W as us → WrittenWithin W (a :: as) (gap ++ (ts ++ us))

namespace WrittenWithin

variable {α β : Type} {V : Part α → List Token → Prop} {W : Part β → List Token → Prop}

theorem last (gap : List Token) {b : Part β} {ts : List Token} (h : W b ts) :
    WrittenWithin W [b] (gap ++ ts) := by
  have hcons := WrittenWithin.cons gap h (.nil [])
  rwa [List.append_nil] at hcons

/-- Related parts stand in for one another. -/
theorem transfer {R : Part α → Part β → Prop} (hR : ∀ a b ts, R a b → V a ts → W b ts)
    {as : List (Part α)} {bs : List (Part β)} {ts : List Token} (h : WrittenWithin V as ts)
    (hbs : List.Forall₂ R as bs) : WrittenWithin W bs ts := by
  induction h generalizing bs with
  | nil ts =>
    cases hbs
    exact .nil ts
  | cons gap ha _ ih =>
    cases hbs with
    | cons hb hrest => exact .cons gap (hR _ _ _ hb ha) (ih hrest)

theorem exists_infix {bs : List (Part β)} {ts : List Token} (h : WrittenWithin W bs ts) :
    ∀ b ∈ bs, ∃ us, us <:+: ts ∧ W b us := by
  induction h with
  | nil =>
    intro b hb
    cases hb
  | @cons a bs ts us gap ha _ ih =>
    intro b hb
    rcases List.mem_cons.mp hb with rfl | hb
    · exact ⟨ts, ⟨gap, us, by rw [List.append_assoc]⟩, ha⟩
    · obtain ⟨vs, hvs, hw⟩ := ih b hb
      rw [← List.append_assoc]
      exact ⟨vs, hvs.trans (List.suffix_append _ us).isInfix, hw⟩

end WrittenWithin

/-- The children of a part are written within the tokens of the part. -/
theorem Part.Derives.children {a : Part Lexeme} {ts : List Token} (h : a.Derives ts) :
    WrittenWithin Derives a.children ts := by
  cases a with
  | pattern p =>
    cases p with
    | literal e l => exact .nil ts
    | name n => exact .nil ts
    | empty e => exact .nil ts
    | array e es =>
      cases h with
      | @array o c _ ts ho hes hc => exact .cons [o] hes (.nil [c])
  | elements es =>
    cases es with
    | one e i =>
      cases h with
      | one hi => exact .last [] hi.part
    | more e i c =>
      cases h with
      | more hi hc => exact .cons [] hi.part (.last [] hc)
  | chain c =>
    cases c with
    | link e i c =>
      cases h with
      | @link comma _ _ ts us hcomma hi hc => exact .cons [comma] hi.part (.last [] hc)
    | last e p =>
      cases h with
      | @last comma _ ts hcomma hp => exact .last [comma] hp
    | lastSplat e s =>
      cases h with
      | @lastSplat comma star t hcomma hstar ht => exact .last [comma] (Item.Derives.splat hstar ht)
  | splat s =>
    obtain ⟨star, t, hstar, ht, rfl, rfl⟩ := Item.derives_splat_inv h
    by_cases htext : t.text = anonymousName
    · rw [Splat.ofToken, if_pos htext]
      exact .nil _
    · rw [Splat.ofToken, if_neg htext]
      exact .last [star] (Pattern.Derives.name ht)

/-! ### Extents of tokens -/

/-- The extent is from the start of the first token to the end of the last. -/
def Extent.Spans (e : Extent) (ts : List Token) : Prop :=
  ∃ first last, ts.head? = some first ∧ ts.getLast? = some last ∧
    e = ⟨first.start, last.extent.stop⟩

theorem Token.spans (t : Token) : t.extent.Spans [t] := ⟨t, t, rfl, rfl, rfl⟩

theorem Extent.Spans.append {e e' : Extent} {ts us : List Token} (h : e.Spans ts)
    (h' : e'.Spans us) : (Extent.mk e.start e'.stop).Spans (ts ++ us) := by
  obtain ⟨first, _, hfirst, -, rfl⟩ := h
  obtain ⟨_, last, -, hlast, rfl⟩ := h'
  refine ⟨first, last, ?_, ?_, rfl⟩
  · rw [List.head?_append, hfirst]
    rfl
  · rw [List.getLast?_append, hlast]
    rfl

theorem Pattern.spans {p : Pattern Lexeme} {ts : List Token} (h : p.Derives ts) :
    p.extent.Spans ts := by
  cases h with
  | @literal t kind ht => exact t.spans
  | @name t ht => exact t.spans
  | @empty o c ho hc => exact ⟨o, c, rfl, rfl, rfl⟩
  | @array o c es ts ho hes hc => exact ⟨o, c, rfl, List.getLast?_concat, rfl⟩

theorem Splat.spans (star t : Token) : (Splat.ofToken star.start t).extent.Spans [star, t] := by
  rw [Splat.extent_ofToken]
  exact ⟨star, t, rfl, rfl, rfl⟩

theorem Item.spans {i : Item Lexeme} {ts : List Token} (h : i.Derives ts) :
    i.extent.Spans ts := by
  cases h with
  | pattern hp => exact Pattern.spans hp
  | @splat star t hstar ht => exact Splat.spans star t

theorem Chain.spans (c : Chain Lexeme) {ts : List Token} (h : c.Derives ts) :
    c.extent.Spans ts := by
  cases c with
  | link e i c =>
    cases h with
    | @link comma _ _ ts us hcomma hi hc =>
      exact (comma.spans.append (Item.spans hi)).append (c.spans hc)
  | last e p =>
    cases h with
    | @last comma _ ts hcomma hp => exact comma.spans.append (Pattern.spans hp)
  | lastSplat e s =>
    cases h with
    | @lastSplat comma star t hcomma hstar ht => exact ⟨comma, t, rfl, rfl, rfl⟩

theorem Elements.spans {es : Elements Lexeme} {ts : List Token} (h : es.Derives ts) :
    es.extent.Spans ts := by
  cases h with
  | one hi => exact Item.spans hi
  | @more i c ts us hi hc => exact (Item.spans hi).append (c.spans hc)

theorem Part.Derives.spans {a : Part Lexeme} {ts : List Token} (h : a.Derives ts) :
    a.extent.Spans ts := by
  cases a with
  | pattern p => exact Pattern.spans h
  | elements es => exact Elements.spans h
  | chain c => exact c.spans h
  | splat s => exact Item.spans h

/-! ### Order -/

/-- The tokens stand one behind the other, and none is empty. -/
def InOrder (ts : List Token) : Prop :=
  ts.Pairwise (fun t u => t.extent.stop ≤ u.start) ∧ ∀ t ∈ ts, t.start < t.extent.stop

theorem InOrder.sublist {ts us : List Token} (h : InOrder us) (hts : List.Sublist ts us) :
    InOrder ts :=
  ⟨h.1.sublist hts, fun t ht => h.2 t (hts.mem ht)⟩

theorem Laid.inOrder {offset : Nat} {ts : List Token} {cs : List Char} (h : Laid offset ts cs)
    (hspelled : ∀ t ∈ ts, Spelled t.word) : InOrder ts :=
  ⟨h.pairwise, fun t ht => (hspelled t ht).start_lt_stop⟩

namespace Extent.Spans

variable {e e' : Extent} {ts us : List Token}

theorem exists_first (h : e.Spans ts) : ∃ t ∈ ts, e.start = t.start := by
  obtain ⟨first, last, hfirst, -, rfl⟩ := h
  exact ⟨first, List.mem_of_mem_head? hfirst, rfl⟩

theorem exists_last (h : e.Spans ts) : ∃ t ∈ ts, e.stop = t.extent.stop := by
  obtain ⟨first, last, -, hlast, rfl⟩ := h
  exact ⟨last, List.mem_of_mem_getLast? hlast, rfl⟩

/-- All of the tokens stand within the extent. -/
theorem bounds (h : e.Spans ts) (hts : InOrder ts) :
    ∀ t ∈ ts, e.start ≤ t.start ∧ t.extent.stop ≤ e.stop := by
  obtain ⟨first, last, hfirst, hlast, rfl⟩ := h
  intro t ht
  refine ⟨?_, ?_⟩
  · obtain ⟨rest, rfl⟩ := List.head?_eq_some_iff.mp hfirst
    rcases List.mem_cons.mp ht with rfl | ht
    · exact Nat.le_refl _
    · have hstart := hts.2 first (by simp)
      have hbehind := List.rel_of_pairwise_cons hts.1 ht
      exact Nat.le_trans (Nat.le_of_lt hstart) hbehind
  · obtain ⟨front, rfl⟩ := List.getLast?_eq_some_iff.mp hlast
    rcases List.mem_append.mp ht with ht | ht
    · have hstart := hts.2 last (by simp)
      have hbefore := (List.pairwise_append.mp hts.1).2.2 t ht last (by simp)
      exact Nat.le_trans hbefore (Nat.le_of_lt hstart)
    · rw [List.mem_singleton.mp ht]

theorem start_lt_stop (h : e.Spans ts) (hts : InOrder ts) : e.start < e.stop := by
  obtain ⟨t, ht, hstart⟩ := h.exists_first
  rw [hstart]
  exact Nat.lt_of_lt_of_le (hts.2 t ht) (h.bounds hts t ht).2

/-- An extent of some of the tokens lies within that of all. -/
theorem nested (h : e.Spans ts) (hts : InOrder ts) (h' : e'.Spans us) (hus : us ⊆ ts) :
    e.start ≤ e'.start ∧ e'.stop ≤ e.stop := by
  obtain ⟨first, hfirst, hstart⟩ := h'.exists_first
  obtain ⟨last, hlast, hstop⟩ := h'.exists_last
  rw [hstart, hstop]
  exact ⟨(h.bounds hts first (hus hfirst)).1, (h.bounds hts last (hus hlast)).2⟩

end Extent.Spans

/-- Parts that are written one behind the other end before the next begins. -/
theorem WrittenWithin.pairwise {α : Type} {W : Part α → List Token → Prop}
    (hW : ∀ a ts, W a ts → a.extent.Spans ts) {as : List (Part α)} {ts : List Token}
    (h : WrittenWithin W as ts) (hts : InOrder ts) :
    as.Pairwise fun a b => a.extent.stop ≤ b.extent.start := by
  induction h with
  | nil => exact .nil
  | @cons a as ts us gap ha hrest ih =>
    have hboth : InOrder (ts ++ us) := hts.sublist (List.sublist_append_right gap _)
    refine .cons ?_ (ih (hboth.sublist (List.sublist_append_right ts us)))
    intro b hb
    obtain ⟨vs, hvs, hwritten⟩ := hrest.exists_infix b hb
    obtain ⟨last, hlast, hstop⟩ := (hW a ts ha).exists_last
    obtain ⟨first, hfirst, hstart⟩ := (hW b vs hwritten).exists_first
    rw [hstop, hstart]
    exact (List.pairwise_append.mp hboth.1).2.2 last hlast first (hvs.subset hfirst)

/-! ### Text of tokens -/

/-- Tokens in their places end with the last of them. -/
theorem Laid.last {offset : Nat} {ts : List Token} {t : Token} {cs : List Char}
    (h : Laid offset ts cs) (ht : ts.getLast? = some t) :
    t.extent.stop = offset + cs.length ∧ t.text <:+ cs := by
  obtain ⟨lead, rfl⟩ := List.getLast?_eq_some_iff.mp ht
  obtain ⟨front, blanks, rest, rfl, -, -, hstart, hrest⟩ := h.split
  cases hrest with
  | nil =>
    rw [List.append_nil]
    refine ⟨?_, List.suffix_append _ _⟩
    simp only [Token.extent, hstart, List.length_append, Nat.add_assoc]

/-- What an extent of some of the tokens cuts out of the text are these tokens, without
    the blanks before the first. -/
theorem Laid.slice {before ts after : List Token} {cs : List Char} {e : Extent}
    (h : Laid 0 (before ++ (ts ++ after)) cs) (he : e.Spans ts) :
    ∃ front mid back, cs = front ++ (mid ++ back) ∧
      e = ⟨front.length, front.length + mid.length⟩ ∧ Laid e.start ts mid := by
  obtain ⟨front, rest, rfl, -, hrest⟩ := h.append_inv
  obtain ⟨mid, back, rfl, hmid, -⟩ := hrest.append_inv
  obtain ⟨first, last, hfirst, hlast, rfl⟩ := he
  have hstop := (hmid.last hlast).1
  cases hmid with
  | nil => cases hfirst
  | @cons _ _ ts blanks cs hblanks hstart hmore =>
    cases hfirst
    have hnone : Blanks [] := fun c hc => by cases hc
    refine ⟨front ++ blanks, first.text ++ cs, back, ?_, ?_, ?_⟩
    · simp only [List.append_assoc]
    · rw [hstop, hstart]
      simp only [List.length_append, Extent.mk.injEq]
      omega
    · exact @Laid.cons first.start first ts [] cs hnone rfl hmore

/-! ### What a part looks like -/

/-- The characters look like what the part is: a name is itself, an array stands between
    brackets, a link of a chain begins with its comma and a splat with its star. -/
def Part.Shows {α : Type} : Part α → List Char → Prop
  | pattern (.name n), cs => cs = n.text.toList
  | pattern (.empty _), cs | pattern (.array _ _), cs => ['['] <+: cs ∧ [']'] <:+ cs
  | pattern (.literal _ _), _ | elements _, _ => True
  | chain _, cs => [','] <+: cs
  | splat (.named _ n), cs => ['*'] <+: cs ∧ n.text.toList <:+ cs
  | splat (.anonymous _), cs => ['*'] <+: cs ∧ anonymousName <:+ cs

theorem Laid.first {t : Token} {ts : List Token} {cs : List Char}
    (h : Laid t.start (t :: ts) cs) : t.text <+: cs := by
  cases h with
  | @cons _ _ _ blanks cs _ hstart _ =>
    obtain rfl : blanks = [] := List.length_eq_zero_iff.mp (by omega)
    exact List.prefix_append _ _

/-- Tokens in their places begin with the first and end with the last. -/
theorem Laid.framed {t u : Token} {ts : List Token} {cs : List Char}
    (h : Laid t.start (t :: ts ++ [u]) cs) : t.text <+: cs ∧ u.text <:+ cs :=
  ⟨Laid.first h, (h.last List.getLast?_concat).2⟩

theorem Laid.single {t : Token} {cs : List Char} (h : Laid t.start [t] cs) : cs = t.text := by
  cases h with
  | @cons _ _ _ blanks cs _ hstart hrest =>
    obtain rfl : blanks = [] := List.length_eq_zero_iff.mp (by omega)
    cases hrest
    rw [List.nil_append, List.append_nil]

theorem text_of_punctuation {t : Token} (ht : Spelled t.word) {k : Terminal} {c : Char}
    (hk : k.lexemes = {[c]}) (hterminal : t.terminal = k) : t.text = [c] :=
  (word_eq_iff.mp (word_of_punctuation ht hk hterminal)).2

theorem bracketed {o c : Token} {ts : List Token} {cs : List Char} (ho : o.terminal = .openBracket)
    (hc : c.terminal = .closeBracket) (hspelled : ∀ t ∈ o :: ts ++ [c], Spelled t.word)
    (hlaid : Laid o.start (o :: ts ++ [c]) cs) : ['['] <+: cs ∧ [']'] <:+ cs := by
  have hopen : o.text = ['['] := text_of_punctuation (hspelled o (by simp)) rfl ho
  have hclose : c.text = [']'] := text_of_punctuation (hspelled c (by simp)) rfl hc
  rw [← hopen, ← hclose]
  exact hlaid.framed

theorem Splat.shows {star t : Token} {cs : List Char} (hstar : star.terminal = .star)
    (hspelled : Spelled star.word) (hlaid : Laid star.start [star, t] cs) {α : Type} :
    (Part.splat (.ofToken star.start t) : Part α).Shows cs := by
  have hfirst : star.text = ['*'] := text_of_punctuation hspelled rfl hstar
  have hframed : star.text <+: cs ∧ t.text <:+ cs := @Laid.framed star t [] cs hlaid
  rw [hfirst] at hframed
  by_cases htext : t.text = anonymousName
  · rw [Splat.ofToken, if_pos htext, Part.Shows, ← htext]
    exact hframed
  · rw [Splat.ofToken, if_neg htext, Part.Shows, toList_name_text]
    exact hframed

/-- The characters of its tokens look like a part. -/
theorem Part.Derives.shows {a : Part Lexeme} {ts : List Token} {cs : List Char}
    (h : a.Derives ts) (hspelled : ∀ t ∈ ts, Spelled t.word) (hlaid : Laid a.extent.start ts cs) :
    a.Shows cs := by
  cases a with
  | pattern p =>
    cases p with
    | literal e l => trivial
    | name n =>
      cases h with
      | @name t ht =>
        rw [Part.Shows, toList_name_text]
        exact Laid.single hlaid
    | empty e =>
      cases h with
      | @empty o c ho hc => exact @bracketed o c [] cs ho hc hspelled hlaid
    | array e es =>
      cases h with
      | @array o c _ ts ho hes hc => exact bracketed ho hc hspelled hlaid
  | elements es => trivial
  | chain c =>
    obtain ⟨comma, us, rfl, hcomma, hstart⟩ := Chain.derives_cons_inv h
    rw [extent, hstart] at hlaid
    have htext : comma.text = [','] := text_of_punctuation (hspelled comma (by simp)) rfl hcomma
    rw [Part.Shows, ← htext]
    exact hlaid.first
  | splat s =>
    obtain ⟨star, t, hstar, ht, rfl, rfl⟩ := Item.derives_splat_inv h
    rw [extent, Splat.extent_ofToken] at hlaid
    exact Splat.shows hstar (hspelled star (by simp)) hlaid

theorem Part.shows_traverse {α β ε : Type} {f : Extent → α → Except ε β} {a : Part α}
    {b : Part β} (h : a.traverse f = .ok b) {cs : List Char} (ha : a.Shows cs) : b.Shows cs := by
  cases a with
  | pattern p =>
    simp only [traverse, bind_eq_ok_iff, pure_eq_ok, Except.ok.injEq] at h
    obtain ⟨q, hq, rfl⟩ := h
    cases p with
    | literal e v =>
      simp only [Pattern.traverse, bind_eq_ok_iff, pure_eq_ok, Except.ok.injEq] at hq
      obtain ⟨w, -, rfl⟩ := hq
      trivial
    | name n =>
      cases hq
      exact ha
    | empty e =>
      cases hq
      exact ha
    | array e es =>
      simp only [Pattern.traverse, bind_eq_ok_iff, pure_eq_ok, Except.ok.injEq] at hq
      obtain ⟨es', -, rfl⟩ := hq
      exact ha
  | elements es =>
    simp only [traverse, bind_eq_ok_iff, pure_eq_ok, Except.ok.injEq] at h
    obtain ⟨es', -, rfl⟩ := h
    trivial
  | chain c =>
    simp only [traverse, bind_eq_ok_iff, pure_eq_ok, Except.ok.injEq] at h
    obtain ⟨d, -, rfl⟩ := h
    exact ha
  | splat s =>
    cases h
    cases s <;> exact ha

/-! ### The text of a pattern on its own -/

/-- The characters of the tokens of a pattern are read as the pattern at the beginning
    of a text. -/
theorem readForm_of_laid {p : Pattern Lexeme} {ts : List Token} {cs : List Char} {k : Nat}
    (h : p.Derives ts) (hspelled : ∀ t ∈ ts, Spelled t.word) (hlaid : Laid k ts cs) :
    ∃ p₀, readForm cs = .ok p₀ ∧ p₀.shift k = p := by
  rw [← Nat.zero_add k] at hlaid
  obtain ⟨us, rfl, hus⟩ := hlaid.unshift
  obtain ⟨hwords, hwell⟩ := p.words_of_derives h hspelled
  rw [map_word_shift] at hwords
  have hcomplete : Complete (us.map Token.word) := ⟨p.outline, hwell, hwords.symm⟩
  have hspelled' : ∀ u ∈ us, Spelled u.word := fun u hu =>
    hcomplete.spelled u.word (List.mem_map_of_mem hu)
  have hnone : Blanks [] := fun c hc => by cases hc
  have htokens := tokensFrom_of_laid hus hnone hspelled' hcomplete.separable
    (Nat.lt_succ_self _)
  rw [List.append_nil] at htokens
  -- the same words are those of a pattern there, and moved on it is this one
  obtain ⟨p₀, -, hp₀⟩ := p.outline.exists_derives hwell hwords
  exact ⟨p₀, readForm_of_derives htokens hp₀, (p₀.derives_shift k hp₀).unique h⟩

theorem parse_of_laid {p : Pattern Lexeme} {q : Pattern Literal} {ts : List Token}
    {cs : List Char} {k : Nat} (h : p.Derives ts) (hspelled : ∀ t ∈ ts, Spelled t.word)
    (hlaid : Laid k ts cs) (hq : p.traverse Lexeme.valueAt = .ok q) :
    ∃ q₀, Pattern.parse (String.ofList cs) = .ok q₀ ∧ q₀.shift k = q := by
  obtain ⟨p₀, hp₀, rfl⟩ := readForm_of_laid h hspelled hlaid
  obtain ⟨q₀, hq₀, rfl⟩ := p₀.traverse_shift (fun _ _ _ hv => Lexeme.valueAt_shift hv) hq
  refine ⟨q₀, ?_, rfl⟩
  rw [Pattern.parse, String.toList_ofList, hp₀, ok_bind, hq₀]

/-! ### All parts -/

/-- The part is what a part of the lexemes turns into that is written with the tokens. -/
def Part.Written (b : Part Literal) (ts : List Token) : Prop :=
  ∃ a : Part Lexeme, a.Derives ts ∧ a.traverse Lexeme.valueAt = .ok b

namespace Part.Written

variable {b : Part Literal} {ts : List Token}

theorem children (h : b.Written ts) : WrittenWithin Written b.children ts := by
  obtain ⟨a, hderives, htraverse⟩ := h
  exact hderives.children.transfer (fun x _ _ hy hx => ⟨x, hx, hy⟩) (traverse_children htraverse).1

theorem spans (h : b.Written ts) : b.extent.Spans ts := by
  obtain ⟨a, hderives, htraverse⟩ := h
  rw [(traverse_children htraverse).2]
  exact hderives.spans

theorem shows {cs : List Char} (h : b.Written ts) (hspelled : ∀ t ∈ ts, Spelled t.word)
    (hlaid : Laid b.extent.start ts cs) : b.Shows cs := by
  obtain ⟨a, hderives, htraverse⟩ := h
  rw [(traverse_children htraverse).2] at hlaid
  exact shows_traverse htraverse (hderives.shows hspelled hlaid)

/-- The characters of the tokens of a pattern are read as the pattern, at the beginning
    of a text of their own. -/
theorem parse {q : Pattern Literal} {cs : List Char} {k : Nat}
    (h : (pattern q).Written ts) (hspelled : ∀ t ∈ ts, Spelled t.word) (hlaid : Laid k ts cs) :
    ∃ q₀, Pattern.parse (String.ofList cs) = .ok q₀ ∧ q₀.shift k = q := by
  obtain ⟨a, hderives, htraverse⟩ := h
  obtain ⟨p, rfl, hq⟩ := traverse_pattern_inv htraverse
  exact parse_of_laid hderives hspelled hlaid hq

end Part.Written

/-- What the places of a part, of its children and of its text have to do with one
    another. -/
structure Part.Placed (source : String) (a : Part Literal) : Prop where
  nonempty : a.extent.start < a.extent.stop
  inside : a.extent.stop ≤ source.length
  nested : ∀ b ∈ a.children, a.extent.start ≤ b.extent.start ∧ b.extent.stop ≤ a.extent.stop
  inOrder : a.children.Pairwise fun b c => b.extent.stop ≤ c.extent.start
  shows : a.Shows (a.extent.within source).text.toList
  parses : ∀ q, a = .pattern q →
    ∃ q₀, Pattern.parse (q.extent.within source).text = .ok q₀ ∧ q₀.shift q.extent.start = q

/-- A part that is written with tokens of the text is in its place. -/
theorem Part.Written.placed {source : String} {b : Part Literal}
    {before ts after : List Token} {front blanks : List Char} (h : b.Written ts)
    (hsource : source.toList = front ++ blanks) (hlaid : Laid 0 (before ++ (ts ++ after)) front)
    (hspelled : ∀ t ∈ before ++ (ts ++ after), Spelled t.word) : b.Placed source := by
  have hspelled' : ∀ t ∈ ts, Spelled t.word := fun t ht => hspelled t (by simp [ht])
  have hts : InOrder ts := (hlaid.inOrder hspelled).sublist
    ((List.sublist_append_left ts after).trans (List.sublist_append_right before _))
  obtain ⟨lead, mid, rest, rfl, hextent, hmid⟩ := hlaid.slice h.spans
  have hcut : source.toList = lead ++ (mid ++ (rest ++ blanks)) := by
    rw [hsource]
    simp only [List.append_assoc]
  have htext : (b.extent.within source).text = String.ofList mid := by
    rw [hextent]
    exact text_within hcut
  refine ⟨h.spans.start_lt_stop hts, ?_, ?_, h.children.pairwise (fun _ _ hw => hw.spans) hts,
    ?_, ?_⟩
  · rw [hextent, ← String.length_toList, hcut]
    simp only [List.length_append]
    omega
  · intro c hc
    obtain ⟨us, hus, hwritten⟩ := h.children.exists_infix c hc
    exact h.spans.nested hts hwritten.spans hus.subset
  · rw [htext, String.toList_ofList]
    exact h.shows hspelled' hmid
  · rintro q rfl
    rw [extent] at htext
    rw [htext]
    exact h.parse hspelled' hmid

/-- Every part of a pattern that is read stands where it was read from: it is listed as a
    node, its extent is a stretch of the text that holds those of its children in their
    order, the text looks like it there, and read on its own that text is the part of the
    pattern again, moved to the beginning. -/
theorem parts_stand_where_read {source : String} {p : Pattern Literal}
    (h : Pattern.parse source = .ok p) :
    p.parts.map Part.node = p.nodes ∧
      ∀ a ∈ p.parts, a.node.extent = a.extent ∧ a.children ⊆ p.parts ∧ a.Placed source := by
  refine ⟨p.map_node_parts, ?_⟩
  obtain ⟨form, hform, htraverse⟩ := bind_eq_ok_iff.mp h
  obtain ⟨ts, front, blanks, hsource, hlaid, -, hspelled, hderives⟩ := derives_of_readForm hform
  have hwritten : ∀ a ∈ p.parts, ∃ us, us <:+: ts ∧ a.Written us := by
    refine p.forall_parts ?_ ?_
    · rintro a ⟨us, hus, ha⟩ b hb
      obtain ⟨vs, hvs, hb⟩ := ha.children.exists_infix b hb
      exact ⟨vs, hvs.trans hus, hb⟩
    · refine ⟨ts, List.infix_refl ts, .pattern form, hderives, ?_⟩
      rw [Part.traverse, htraverse, ok_bind, pure_eq_ok]
  intro a ha
  obtain ⟨us, ⟨before, after, rfl⟩, hus⟩ := hwritten a ha
  rw [List.append_assoc] at hlaid hspelled
  exact ⟨a.extent_node, fun b hb => Pattern.mem_parts_of_mem_children ha hb,
    hus.placed hsource hlaid hspelled⟩

theorem parts_stand_where_read_nested :
    ∃ p q q₀, Pattern.parse " [a, [1 , *t]]" = .ok p ∧ p.nodes.length = 10 ∧
      .pattern q ∈ p.parts ∧ q.extent = ⟨5, 13⟩ ∧
      Pattern.parse "[1 , *t]" = .ok q₀ ∧ q₀.shift 5 = q := by
  have hparse : ∃ p, Pattern.parse " [a, [1 , *t]]" = .ok p := ⟨_, by cbv⟩
  obtain ⟨p, hp⟩ := hparse
  obtain ⟨-, hparts⟩ := parts_stand_where_read hp
  have hinner : ∃ q, .pattern q ∈ p.parts ∧ q.extent = ⟨5, 13⟩ ∧ p.nodes.length = 10 := by
    cbv at hp
    cases hp
    exact ⟨_, .tail _ (.tail _ (.tail _ (.tail _ (.head _)))), rfl, rfl⟩
  obtain ⟨q, hq, hextent, hlength⟩ := hinner
  obtain ⟨-, -, hplaced⟩ := hparts (.pattern q) hq
  obtain ⟨q₀, hq₀, hshift⟩ := hplaced.parses q rfl
  have htext : (q.extent.within " [a, [1 , *t]]").text = "[1 , *t]" := by
    rw [hextent]
    cbv
  rw [htext] at hq₀
  rw [hextent] at hshift
  exact ⟨p, q, q₀, hp, hlength, hq, hextent, hq₀, hshift⟩

end Destructure
