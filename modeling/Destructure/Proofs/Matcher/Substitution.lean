/-
  Destructure/Proofs/Matcher/Substitution.lean
  ============================================
  **Matching what has been substituted** — the matcher of a pattern takes the value
  that an assignment makes of the pattern, and captures what was assigned
  (`Pattern.agrees_substitute`). Where it takes another value, in which lists lie
  opposite the array patterns, what it captures makes that value of the pattern again
  (`Pattern.rebuilds`). Both go along the chain of matchers: at each index the link
  and the items of the list from there on say the same.
-/
import Destructure.Proofs.Matcher.Simulation
import Destructure.Proofs.Pattern.Order
import Destructure.Proofs.Pattern.Substitution

namespace Destructure

/-! ### Lists from an index on -/

section Lists

variable {xs ws : List Value} {x : Value} {i : Nat}

theorem drop_cons_inv (h : xs.drop i = x :: ws) :
    (Value.list xs).elementAt? i = some x ∧ xs.drop (i + 1) = ws := by
  refine ⟨?_, ?_⟩
  · rw [Value.elementAt?, ← Nat.add_zero i, ← List.getElem?_drop, h]
    rfl
  · rw [← List.drop_drop, h]
    rfl

theorem drop_of_element (h : (Value.list xs).element (i : Int) = .ok x) :
    xs.drop i = x :: xs.drop (i + 1) := by
  obtain ⟨hi, rfl⟩ := List.getElem?_eq_some_iff.mp (Value.element_eq_ok_iff.mp h)
  exact List.drop_eq_getElem_cons hi

theorem suffix_list (hi : i ≤ xs.length) :
    (Value.list xs).suffix (i : Int) = .ok (.list (xs.drop i)) := by
  rw [Value.suffix, cutOffset_natCast hi]

theorem length_of_length? {n : Nat} (h : (Value.list xs).length? = .ok (some n)) :
    n = xs.length := by
  by_cases hlimit : (Value.list xs).length ≤ Value.countLimit
  · rw [Value.length?_eq_some rfl hlimit] at h
    cases h
    rfl
  · rw [Value.length?_eq_error rfl (Nat.not_le.mp hlimit)] at h
    cases h

end Lists

/-! ### What is substituted is captured -/

/-- Every literal accepts its own value. -/
def Acceptable (ls : List Literal) : Prop := ∀ l ∈ ls, l.accepts l.toValue = .ok true

theorem Literal.accepts_toValue {l : Literal} (h : l.equals l = true) :
    l.accepts l.toValue = .ok true := by
  cases l with
  | text s => simp [accepts, toValue, Value.string, Value.text?]
  | integer n =>
    have hself : (Number.integer n).quantity.equal (Number.integer n).quantity = true := h
    simp only [accepts, toValue, Number.equals, Number.related, Number.align, Except.map,
      Relation.ofQuantities, hself]
  | float x =>
    have hself : (Number.float x).quantity.equal (Number.float x).quantity = true := h
    simp only [accepts, toValue, Number.equals, Number.related, Number.align, Except.map,
      Relation.ofQuantities, hself]

/-- The matcher takes the value, and captures under its names what is assigned to
    them. -/
def CapturesAssigned (a : Bindings) (m : Matcher) (v : Value) : Prop :=
  ∃ bs, Agrees m v (some bs) ∧ ∀ b ∈ bs, a.lookup b.1 = some b.2

section Substituted

variable {a : Bindings} {source : String}

theorem CapturesAssigned.item {h t : Matcher} {v x : Value} {i : Nat}
    (hhead : CapturesAssigned a h x) (htail : CapturesAssigned a t v)
    (hsequence : v.isSequence = true) (hlength : v.length ≤ Value.countLimit)
    (hx : v.elementAt? i = some x) (origin : Option Span) :
    CapturesAssigned a (.item h t i origin) v := by
  obtain ⟨left, hleft, hleftassigned⟩ := hhead
  obtain ⟨right, hright, hrightassigned⟩ := htail
  refine ⟨left ++ right, Simulates.agrees_item hsequence hlength hx origin hleft hright, ?_⟩
  intro b hb
  rcases List.mem_append.mp hb with hb | hb
  · exact hleftassigned b hb
  · exact hrightassigned b hb

theorem CapturesAssigned.nothing {v : Value} (hsequence : v.isSequence = true)
    (hlength : v.length ≤ Value.countLimit) (origin : Option Span) :
    CapturesAssigned a (.nothing v.length origin) v :=
  ⟨[], Agrees.nothing hsequence hlength origin, by simp⟩

/-- Nothing stands behind a splat, so it captures all that has been spliced in. -/
theorem Splat.capturesAssigned_closing (s : Splat) {xs ws : List Value} {i : Nat}
    (hws : substituteEach? a [.splat s.name?] = some ws) (hi : i ≤ xs.length)
    (hxs : xs.drop i = ws) (hlength : (Value.list xs).length ≤ Value.countLimit)
    (owner : Extent) :
    CapturesAssigned a (s.closing source owner i) (.list xs) := by
  refine ⟨_, s.agrees_closing rfl hlength hi (suffix_list hi) source owner, ?_⟩
  cases s with
  | anonymous e => simp [Splat.name?]
  | named e n =>
    obtain ⟨ys, zs, hlookup, hzs, rfl⟩ := substituteEach?_splat hws
    cases hzs
    intro b hb
    have hb : b = (n.text, .list (xs.drop i)) := by simpa [Splat.name?] using hb
    rw [hb, hlookup, hxs, List.append_nil]

mutual

/-- What an assignment makes of a pattern is taken by its matcher, which captures what
    is assigned. -/
theorem Pattern.agrees_substitute (p : Pattern Literal) {m : Matcher}
    (hm : p.toMatcher source = .ok m) (hliterals : Acceptable p.outline.literals) {w : Value}
    (hw : p.outline.substitute? a = some w) (hcount : w.Countable) : CapturesAssigned a m w := by
  cases p with
  | literal e l =>
    cases hm
    cases hw
    have haccepts := hliterals l (by simp [Pattern.outline, Outline.literals])
    refine ⟨[], ⟨haccepts, ?_⟩, by simp⟩
    intro bs hbs _
    cases hbs
    rfl
  | name n =>
    cases hm
    refine ⟨[(n.text, w)], ⟨rfl, ?_⟩, ?_⟩
    · intro bs hbs _
      cases hbs
      rfl
    · intro b hb
      rw [List.mem_singleton.mp hb]
      exact hw
  | empty e =>
    cases hm
    cases hw
    exact CapturesAssigned.nothing (v := .list []) rfl hcount.1 _
  | array e es =>
    obtain ⟨ws, hws, rfl⟩ := Option.map_eq_some_iff.mp hw
    exact es.agrees_substitute hm hliterals hws hcount

theorem Elements.agrees_substitute (es : Elements Literal) {m : Matcher}
    (hm : es.toMatcher source = .ok m) (hliterals : Acceptable (entryLiterals es.entries))
    {ws : List Value} (hws : substituteEach? a es.entries = some ws)
    (hcount : (Value.list ws).Countable) : CapturesAssigned a m (.list ws) := by
  cases es with
  | one e i =>
    cases i with
    | splat s =>
      cases hm
      exact s.capturesAssigned_closing hws (Nat.zero_le _) rfl hcount.1 e
    | pattern p =>
      obtain ⟨h, hp, hm⟩ := bind_eq_ok_iff.mp hm
      cases hm
      obtain ⟨x, ys, hx, hys, rfl⟩ := substituteEach?_pattern hws
      cases hys
      have hliterals := (List.forall_mem_append.mp hliterals).1
      have hhead := p.agrees_substitute hp hliterals hx hcount.2.1
      exact hhead.item (.nothing (v := .list [x]) rfl hcount.1 _) rfl hcount.1 rfl _
  | more e i c =>
    cases i with
    | splat s => cases hm
    | pattern p =>
      obtain ⟨t, hc, hm⟩ := bind_eq_ok_iff.mp hm
      obtain ⟨h, hp, hm⟩ := bind_eq_ok_iff.mp hm
      cases hm
      obtain ⟨x, ys, hx, hys, rfl⟩ := substituteEach?_pattern hws
      obtain ⟨hfirst, hrest⟩ := List.forall_mem_append.mp hliterals
      have hhead := p.agrees_substitute hp hfirst hx hcount.2.1
      have htail := c.agrees_substitute 1 hc hrest hys rfl (by simp) hcount
      exact hhead.item htail rfl hcount.1 rfl _

/-- From each index on, a chain takes a list that goes on with what its items stand
    for. -/
theorem Chain.agrees_substitute (c : Chain Literal) (i : Nat) {m : Matcher}
    (hm : c.toMatcher source i = .ok m) (hliterals : Acceptable (entryLiterals c.entries))
    {ws xs : List Value} (hws : substituteEach? a c.entries = some ws) (hxs : xs.drop i = ws)
    (hi : i ≤ xs.length) (hcount : (Value.list xs).Countable) :
    CapturesAssigned a m (.list xs) := by
  cases c with
  | link e j c =>
    cases j with
    | splat s => cases hm
    | pattern p =>
      obtain ⟨h, hp, hm⟩ := bind_eq_ok_iff.mp hm
      obtain ⟨t, hc, hm⟩ := bind_eq_ok_iff.mp hm
      cases hm
      obtain ⟨x, ys, hx, hys, rfl⟩ := substituteEach?_pattern hws
      obtain ⟨helement, hdrop⟩ := drop_cons_inv hxs
      obtain ⟨hfirst, hrest⟩ := List.forall_mem_append.mp hliterals
      have hxcount := (allCountable_iff xs).mp hcount.2 x (List.mem_of_getElem? helement)
      have hroom := Value.lt_length_of_elementAt? helement
      have hhead := p.agrees_substitute hp hfirst hx hxcount
      have htail := c.agrees_substitute (i + 1) hc hrest hys hdrop hroom hcount
      exact hhead.item htail rfl hcount.1 helement _
  | last e p =>
    obtain ⟨h, hp, hm⟩ := bind_eq_ok_iff.mp hm
    cases hm
    obtain ⟨x, ys, hx, hys, rfl⟩ := substituteEach?_pattern hws
    cases hys
    obtain ⟨helement, hdrop⟩ := drop_cons_inv hxs
    have hliterals := (List.forall_mem_append.mp hliterals).1
    have hxcount := (allCountable_iff xs).mp hcount.2 x (List.mem_of_getElem? helement)
    have hroom := Value.lt_length_of_elementAt? helement
    have hlength : (Value.list xs).length = i + 1 :=
      Nat.le_antisymm (List.drop_eq_nil_iff.mp hdrop) hroom
    obtain ⟨bs, hagrees, hassigned⟩ := p.agrees_substitute hp hliterals hx hxcount
    exact ⟨bs, hagrees.last (v := .list xs) rfl hcount.1 helement hlength _, hassigned⟩
  | lastSplat e s =>
    cases hm
    exact s.capturesAssigned_closing hws hi hxs hcount.1 e

end

end Substituted

/-! ### What is captured rebuilds the value -/

/-- The matcher takes the value, and what it captures is assigned. -/
def Matcher.CapturesInto (m : Matcher) (v : Value) (a : Bindings) : Prop :=
  m.definedAt v = .ok true ∧ ∃ bs, m.bindings v = .ok bs ∧ ∀ b ∈ bs, a.lookup b.1 = some b.2

section Captured

variable {a : Bindings} {source : String} {h t : Matcher} {v : Value} {index : Int}
  {origin : Option Span}

theorem capturesInto_item (hm : (Matcher.item h t index origin).CapturesInto v a) :
    ∃ x, v.element index = .ok x ∧ h.CapturesInto x a ∧ t.CapturesInto v a := by
  obtain ⟨hdefined, bs, hbs, hassigned⟩ := hm
  obtain ⟨⟨n, hlength, -⟩, x, hx, hhead, htail⟩ := Matcher.definedAt_item_inv hdefined
  rw [Matcher.bindings_item (isSequence_of_length? hlength) hx] at hbs
  obtain ⟨left, hleft, hbs⟩ := bind_eq_ok_iff.mp hbs
  obtain ⟨right, hright, hmerge⟩ := bind_eq_ok_iff.mp hbs
  rw [eq_append_of_merge hmerge] at hassigned
  obtain ⟨hleftassigned, hrightassigned⟩ := List.forall_mem_append.mp hassigned
  exact ⟨x, hx, ⟨hhead, left, hleft, hleftassigned⟩, htail, right, hright, hrightassigned⟩

theorem capturesInto_last (hm : (Matcher.last h index origin).CapturesInto v a) :
    ∃ x, v.element index = .ok x ∧ h.CapturesInto x a := by
  obtain ⟨hdefined, bs, hbs, hassigned⟩ := hm
  obtain ⟨⟨n, hlength, -⟩, x, hx, helement⟩ := Matcher.definedAt_last_inv hdefined
  rw [Matcher.bindings_last (isSequence_of_length? hlength) hx] at hbs
  exact ⟨x, hx, helement, bs, hbs, hassigned⟩

theorem Literal.rebuilds {l : Literal} {x : Value} (h : l.accepts x = .ok true) :
    Outline.Rebuilds (.literal l) l.toValue x := by
  cases l with
  | text s => exact .text (by simpa [accepts] using h)
  | integer n =>
    cases x with
    | number m => exact .number rfl h
    | duration unit count =>
      obtain rfl : count = some n := beq_iff_eq.mp (Except.ok.inj h)
      exact .duration n unit
    | _ => cases h
  | float y =>
    cases x with
    | number m => exact .number rfl h
    | _ => cases h

/-- An item in front of those that are rebuilt. -/
theorem rebuilds_front {o : Outline Literal} {es : List (Entry Literal)} {xs : List Value}
    {x : Value} {i : Nat} (hdrop : xs.drop i = x :: xs.drop (i + 1))
    (hhead : ∃ w, o.substitute? a = some w ∧ o.Rebuilds w x)
    (htail : ∃ ws, substituteEach? a es = some ws ∧ EachRebuilds es ws (xs.drop (i + 1))) :
    ∃ ws, substituteEach? a (.pattern o :: es) = some ws ∧
      EachRebuilds (.pattern o :: es) ws (xs.drop i) := by
  obtain ⟨w, hw, hrebuilds⟩ := hhead
  obtain ⟨ws, hws, heach⟩ := htail
  refine ⟨w :: ws, ?_, ?_⟩
  · simp only [substituteEach?, hw, hws]
    rfl
  · rw [hdrop]
    exact .pattern hrebuilds heach

theorem Splat.rebuilds_closing (s : Splat) (hnamed : s.name? ≠ none) {xs : List Value} {i : Nat}
    {owner : Extent} (hm : (s.closing source owner i).CapturesInto (.list xs) a) :
    ∃ ws, substituteEach? a [.splat s.name?] = some ws ∧
      EachRebuilds [.splat s.name?] ws (xs.drop i) := by
  cases s with
  | anonymous e => exact absurd rfl hnamed
  | named e n =>
    obtain ⟨hdefined, bs, hbs, hassigned⟩ := hm
    obtain ⟨⟨k, hlength, hindex⟩, -⟩ := Matcher.definedAt_remainder_inv hdefined
    have hi : i ≤ xs.length := by
      rw [length_of_length? hlength] at hindex
      exact Int.ofNat_le.mp hindex
    rw [Splat.closing, Matcher.bindings_remainder (isSequence_of_length? hlength) rfl
      (suffix_list hi)] at hbs
    cases hbs
    have hlookup : a.lookup n.text = some (.list (xs.drop i)) :=
      hassigned _ (List.mem_singleton.mpr rfl)
    refine ⟨xs.drop i, ?_, .splat _ _⟩
    simp [Splat.name?, substituteEach?, hlookup, Value.items?]

mutual

/-- What the matcher of a pattern captures makes the value of the pattern again. -/
theorem Pattern.rebuilds (p : Pattern Literal) {m : Matcher} (hm : p.toMatcher source = .ok m)
    (hnamed : ∀ s ∈ p.splats, s.name? ≠ none) {v : Value} (hcaptures : m.CapturesInto v a)
    (hfaced : p.outline.FacedByLists v) :
    ∃ w, p.outline.substitute? a = some w ∧ p.outline.Rebuilds w v := by
  cases p with
  | literal e l =>
    cases hm
    exact ⟨l.toValue, rfl, l.rebuilds hcaptures.1⟩
  | name n =>
    cases hm
    obtain ⟨-, bs, hbs, hassigned⟩ := hcaptures
    cases hbs
    exact ⟨v, hassigned (n.text, v) (List.mem_singleton.mpr rfl), .name _ _⟩
  | empty e =>
    cases hm
    obtain ⟨xs, rfl, -⟩ := facedByLists_array hfaced
    obtain ⟨n, hlength, hn⟩ := Matcher.definedAt_nothing_inv hcaptures.1
    rw [length_of_length? hlength] at hn
    have hnil : xs = [] := List.length_eq_zero_iff.mp (Int.ofNat_eq_zero.mp hn)
    subst hnil
    exact ⟨.list [], rfl, .array .nil⟩
  | array e es =>
    obtain ⟨xs, rfl, hfaced⟩ := facedByLists_array hfaced
    obtain ⟨ws, hws, heach⟩ := es.rebuilds hm hnamed hcaptures hfaced
    refine ⟨.list ws, ?_, .array heach⟩
    rw [Pattern.outline, Outline.substitute?, hws]
    rfl

theorem Elements.rebuilds (es : Elements Literal) {m : Matcher} (hm : es.toMatcher source = .ok m)
    (hnamed : ∀ s ∈ es.splats, s.name? ≠ none) {xs : List Value}
    (hcaptures : m.CapturesInto (.list xs) a) (hfaced : EachFacedByLists es.entries xs) :
    ∃ ws, substituteEach? a es.entries = some ws ∧ EachRebuilds es.entries ws xs := by
  cases es with
  | one e i =>
    cases i with
    | splat s =>
      cases hm
      exact s.rebuilds_closing (i := 0) (hnamed s (List.mem_singleton.mpr rfl)) hcaptures
    | pattern p =>
      obtain ⟨h, hp, hm⟩ := bind_eq_ok_iff.mp hm
      cases hm
      obtain ⟨x, hx, hhead, htail⟩ := capturesInto_item hcaptures
      have hdrop := drop_of_element (i := 0) hx
      rw [← List.drop_zero (l := xs), hdrop] at hfaced
      have hfront := p.rebuilds hp hnamed hhead hfaced.1
      refine rebuilds_front hdrop hfront ⟨[], rfl, ?_⟩
      -- the end is asked for behind the only item
      obtain ⟨n, hlength, hn⟩ := Matcher.definedAt_nothing_inv htail.1
      rw [length_of_length? hlength] at hn
      have hnil : xs.drop (0 + 1) = [] := List.drop_eq_nil_iff.mpr (by omega)
      rw [hnil]
      exact .nil
  | more e i c =>
    cases i with
    | splat s => cases hm
    | pattern p =>
      obtain ⟨t, hc, hm⟩ := bind_eq_ok_iff.mp hm
      obtain ⟨h, hp, hm⟩ := bind_eq_ok_iff.mp hm
      cases hm
      obtain ⟨x, hx, hhead, htail⟩ := capturesInto_item hcaptures
      have hdrop := drop_of_element (i := 0) hx
      rw [← List.drop_zero (l := xs), hdrop] at hfaced
      obtain ⟨hfirst, hrest⟩ := List.forall_mem_append.mp hnamed
      have hfront := p.rebuilds hp hfirst hhead hfaced.1
      exact rebuilds_front hdrop hfront (c.rebuilds 1 hc hrest htail hfaced.2)

/-- From each index on, what a chain captures makes the rest of the list again. -/
theorem Chain.rebuilds (c : Chain Literal) (i : Nat) {m : Matcher}
    (hm : c.toMatcher source i = .ok m) (hnamed : ∀ s ∈ c.splats, s.name? ≠ none)
    {xs : List Value} (hcaptures : m.CapturesInto (.list xs) a)
    (hfaced : EachFacedByLists c.entries (xs.drop i)) :
    ∃ ws, substituteEach? a c.entries = some ws ∧ EachRebuilds c.entries ws (xs.drop i) := by
  cases c with
  | link e j c =>
    cases j with
    | splat s => cases hm
    | pattern p =>
      obtain ⟨h, hp, hm⟩ := bind_eq_ok_iff.mp hm
      obtain ⟨t, hc, hm⟩ := bind_eq_ok_iff.mp hm
      cases hm
      obtain ⟨x, hx, hhead, htail⟩ := capturesInto_item hcaptures
      have hdrop := drop_of_element hx
      rw [hdrop] at hfaced
      obtain ⟨hfirst, hrest⟩ := List.forall_mem_append.mp hnamed
      have hfront := p.rebuilds hp hfirst hhead hfaced.1
      exact rebuilds_front hdrop hfront (c.rebuilds (i + 1) hc hrest htail hfaced.2)
  | last e p =>
    obtain ⟨h, hp, hm⟩ := bind_eq_ok_iff.mp hm
    cases hm
    obtain ⟨⟨n, hlength, hn⟩, -⟩ := Matcher.definedAt_last_inv hcaptures.1
    obtain ⟨x, hx, helement⟩ := capturesInto_last hcaptures
    have hdrop := drop_of_element hx
    rw [hdrop] at hfaced
    have hfront := p.rebuilds hp hnamed helement hfaced.1
    refine rebuilds_front hdrop hfront ⟨[], rfl, ?_⟩
    rw [length_of_length? hlength] at hn
    have hnil : xs.drop (i + 1) = [] := List.drop_eq_nil_iff.mpr (by omega)
    rw [hnil]
    exact .nil
  | lastSplat e s =>
    cases hm
    exact s.rebuilds_closing (hnamed s (List.mem_singleton.mpr rfl)) hcaptures

end

end Captured

end Destructure
