/-
  Destructure/Proofs/Matcher/Likeness.lean
  ========================================
  **Equality of matchers** — matchers are compared part by part, and a comparison can
  fail only over a value that no literal can write. Where literals are all that is asked
  for, two matchers are equal exactly if they are alike: the same links at the same
  indices, over the same names and over literals that say the same. Matchers of patterns
  are such matchers, and they are alike exactly if their patterns are
  (`Pattern.alike_toMatcher_iff`): nothing of a pattern is lost in its matcher but its
  places.
-/
import Destructure.Matcher.OfPattern
import Destructure.Proofs.Outcome
import Destructure.Proofs.Pattern.Likeness
import Destructure.Proofs.Pattern.Valuation

namespace Destructure

/-! ### Matchers of literals -/

/-- All values that a matcher asks for are literals, and have the property. -/
def Matcher.AllLiterals (P : Literal → Prop) : Matcher → Prop
  | literal l _ => P l
  | equalTo .. => False
  | capture .. | nothing .. | anything _ => True
  | item h t _ _ | remainder h t _ _ => h.AllLiterals P ∧ t.AllLiterals P
  | last e _ _ => e.AllLiterals P

/-- Whether two matchers differ at most in their origins and in how their numbers are
    written. -/
def Matcher.Alike : Matcher → Matcher → Prop
  | capture a _, capture b _ => a = b
  | literal a _, literal b _ => a.Alike b
  | nothing i _, nothing j _ => i = j
  | item h t i _, item h' t' j _ | remainder h t i _, remainder h' t' j _ =>
    h.Alike h' ∧ t.Alike t' ∧ i = j
  | last e i _, last e' j _ => e.Alike e' ∧ i = j
  | anything _, anything _ => True
  | _, _ => False
termination_by structural m => m

/-! ### Comparing -/

/-- A comparison has an answer, which says whether the statement holds. -/
def Decides (r : Except Fault Bool) (p : Prop) : Prop := ∃ b, r = .ok b ∧ (b = true ↔ p)

namespace Decides

variable {r s : Except Fault Bool} {p q : Prop}

theorem of_not (h : ¬ p) : Decides (.ok false) p := ⟨false, rfl, iff_of_false Bool.false_ne_true h⟩

/-- A part is compared, and then the index. -/
theorem part (hr : Decides r p) (i j : Int) :
    Decides (do return (← r) && i == j) (p ∧ i = j) := by
  obtain ⟨x, rfl, hx⟩ := hr
  refine ⟨x && i == j, rfl, ?_⟩
  rw [Bool.and_eq_true, beq_iff_eq, hx]

/-- Two parts are compared, the second ones where the first ones are equal, and then the
    index. -/
theorem parts (hr : Decides r p) (hs : Decides s q) (i j : Int) :
    Decides (do
      if !(← r) then return false
      return (← s) && i == j) (p ∧ q ∧ i = j) := by
  obtain ⟨x, rfl, hx⟩ := hr
  obtain ⟨b, hb, hiff⟩ := hs.part i j
  cases x with
  | false => exact .of_not fun h => Bool.false_ne_true (hx.mpr h.1)
  | true => exact ⟨b, hb, by rw [hiff, ← hx]; simp⟩

/-- Parts are compared although their owners differ anyway. -/
theorem parts_apart (hr : Decides r p) (hs : Decides s q) {t : Prop} (ht : ¬ t) :
    Decides (do
      if ← r then let _ ← s
      return false) t := by
  obtain ⟨x, rfl, -⟩ := hr
  obtain ⟨y, rfl, -⟩ := hs
  cases x <;> exact .of_not ht

end Decides

/-- Matchers that ask for literals only can be compared, and are equal exactly if they are
    alike. -/
theorem Matcher.decides_equals {P Q : Literal → Prop} {m n : Matcher} (hm : m.AllLiterals P)
    (hn : n.AllLiterals Q) : Decides (m.equals n) (m.Alike n) := by
  induction m generalizing n with
  | capture a o =>
    cases n with
    | capture b o' => exact ⟨a == b, rfl, beq_iff_eq⟩
    | equalTo => cases hn
    | _ => exact .of_not id
  | literal a o =>
    cases n with
    | literal b o' => exact ⟨a.equals b, rfl, Literal.equals_eq_true_iff⟩
    | equalTo => cases hn
    | _ => exact .of_not id
  | equalTo => cases hm
  | nothing i o =>
    cases n with
    | nothing j o' => exact ⟨i == j, rfl, beq_iff_eq⟩
    | equalTo => cases hn
    | _ => exact .of_not id
  | item h t i o ihh iht =>
    cases n with
    | item h' t' j o' => exact (ihh hm.1 hn.1).parts (iht hm.2 hn.2) i j
    | remainder => exact (ihh hm.1 hn.1).parts_apart (iht hm.2 hn.2) id
    | equalTo => cases hn
    | _ => exact .of_not id
  | remainder h t i o ihh iht =>
    cases n with
    | remainder h' t' j o' => exact (ihh hm.1 hn.1).parts (iht hm.2 hn.2) i j
    | item => exact (ihh hm.1 hn.1).parts_apart (iht hm.2 hn.2) id
    | equalTo => cases hn
    | _ => exact .of_not id
  | last e i o ih =>
    cases n with
    | last e' j o' =>
      have he' : e'.AllLiterals Q := hn
      exact (ih hm he').part i j
    | equalTo => cases hn
    | _ => exact .of_not id
  | anything o =>
    cases n with
    | anything o' => exact ⟨true, rfl, iff_of_true rfl trivial⟩
    | equalTo => cases hn
    | _ => exact .of_not id

/-! ### Matchers of patterns -/

/-- The first one of more elements, and the chain of the others at index one. -/
theorem Elements.more_inversion {source : String} {e : Extent} {p : Pattern Literal}
    {c : Chain Literal} {m : Matcher}
    (hm : (Elements.more e (.pattern p) c).toMatcher source = .ok m) :
    ∃ h t o, c.toMatcher source 1 = .ok t ∧ p.toMatcher source = .ok h ∧ m = .item h t 0 o := by
  obtain ⟨t, hc, hm⟩ := bind_eq_ok_iff.mp hm
  obtain ⟨h, hp, hm⟩ := bind_eq_ok_iff.mp hm
  cases hm
  exact ⟨h, t, _, hc, hp, rfl⟩

theorem Chain.link_inversion {source : String} {index : Int} {e : Extent} {p : Pattern Literal}
    {c : Chain Literal} {m : Matcher}
    (hm : (Chain.link e (.pattern p) c).toMatcher source index = .ok m) :
    ∃ h t o, c.toMatcher source (index + 1) = .ok t ∧ p.toMatcher source = .ok h ∧
      m = .item h t index o := by
  obtain ⟨h, hp, hm⟩ := bind_eq_ok_iff.mp hm
  obtain ⟨t, hc, hm⟩ := bind_eq_ok_iff.mp hm
  cases hm
  exact ⟨h, t, _, hc, hp, rfl⟩

theorem Splat.allLiterals_closing (P : Literal → Prop) (source : String) (e : Extent) (i : Int)
    (s : Splat) : (s.closing source e i).AllLiterals P := by
  cases s <;> exact ⟨trivial, trivial⟩

mutual

/-- What holds of the literals of a pattern holds of all that its matcher asks for. -/
theorem Pattern.allLiterals {P : Literal → Prop} {source : String} (p : Pattern Literal)
    {m : Matcher} (hm : p.toMatcher source = .ok m) (h : ∀ l ∈ p.outline.literals, P l) :
    m.AllLiterals P := by
  cases p with
  | literal e l =>
    cases hm
    exact h l (by simp [Pattern.outline, Outline.literals])
  | name n =>
    cases hm
    trivial
  | empty e =>
    cases hm
    trivial
  | array e es => exact es.allLiterals hm h

theorem Elements.allLiterals {P : Literal → Prop} {source : String} (es : Elements Literal)
    {m : Matcher} (hm : es.toMatcher source = .ok m) (h : ∀ l ∈ entryLiterals es.entries, P l) :
    m.AllLiterals P := by
  cases es with
  | one e i =>
    cases i with
    | splat s =>
      cases hm
      exact s.allLiterals_closing P source e 0
    | pattern p =>
      obtain ⟨head, hp, hm⟩ := bind_eq_ok_iff.mp hm
      cases hm
      rw [Elements.entries, entryLiterals, entryLiterals, List.append_nil] at h
      exact ⟨p.allLiterals hp h, trivial⟩
  | more e i c =>
    cases i with
    | splat s => cases hm
    | pattern p =>
      obtain ⟨head, tail, o, hc, hp, rfl⟩ := Elements.more_inversion hm
      obtain ⟨hhead, htail⟩ := List.forall_mem_append.mp h
      exact ⟨p.allLiterals hp hhead, c.allLiterals hc htail⟩

theorem Chain.allLiterals {P : Literal → Prop} {source : String} {index : Int}
    (c : Chain Literal) {m : Matcher} (hm : c.toMatcher source index = .ok m)
    (h : ∀ l ∈ entryLiterals c.entries, P l) : m.AllLiterals P := by
  cases c with
  | link e i c =>
    cases i with
    | splat s => cases hm
    | pattern p =>
      obtain ⟨head, tail, o, hc, hp, rfl⟩ := Chain.link_inversion hm
      obtain ⟨hhead, htail⟩ := List.forall_mem_append.mp h
      exact ⟨p.allLiterals hp hhead, c.allLiterals hc htail⟩
  | last e p =>
    obtain ⟨element, hp, hm⟩ := bind_eq_ok_iff.mp hm
    cases hm
    rw [Chain.entries, entryLiterals, entryLiterals, List.append_nil] at h
    have helement : element.AllLiterals P := p.allLiterals hp h
    exact helement
  | lastSplat e s =>
    cases hm
    exact s.allLiterals_closing P source e index

end

/-- The matcher of an array with items is a link. -/
theorem Elements.exists_link {source : String} (es : Elements Literal) {m : Matcher}
    (hm : es.toMatcher source = .ok m) :
    ∃ h t o, m = .item h t 0 o ∨ m = .remainder h t 0 o := by
  cases es with
  | one e i =>
    cases i with
    | splat s =>
      cases hm
      exact ⟨_, _, _, Or.inr rfl⟩
    | pattern p =>
      obtain ⟨h, hp, hm⟩ := bind_eq_ok_iff.mp hm
      cases hm
      exact ⟨_, _, _, Or.inl rfl⟩
  | more e i c =>
    cases i with
    | splat s => cases hm
    | pattern p =>
      obtain ⟨h, t, o, -, -, rfl⟩ := Elements.more_inversion hm
      exact ⟨h, t, o, Or.inl rfl⟩

/-- A chain goes on: its matcher is not like the end of a sequence. -/
theorem Chain.not_alike_nothing {source : String} {index i : Int} {o : Option Span}
    (c : Chain Literal) {m : Matcher} (hm : c.toMatcher source index = .ok m) :
    ¬ m.Alike (.nothing i o) ∧ ¬ (Matcher.nothing i o).Alike m := by
  cases c with
  | link e j c =>
    cases j with
    | splat s => cases hm
    | pattern p =>
      obtain ⟨h, t, o', -, -, rfl⟩ := Chain.link_inversion hm
      exact ⟨id, id⟩
  | last e p =>
    obtain ⟨h, hp, hm⟩ := bind_eq_ok_iff.mp hm
    cases hm
    exact ⟨id, id⟩
  | lastSplat e s =>
    cases hm
    exact ⟨id, id⟩

/-- Splats are closed alike at the same index, if both are anonymous or have the same
    name. -/
theorem Splat.alike_closing_iff (source source' : String) (e e' : Extent) (i : Int)
    (s t : Splat) :
    (s.closing source e i).Alike (t.closing source' e' i) ↔ s.name? = t.name? := by
  cases s <;> cases t <;>
    simp [Splat.closing, Splat.toMatcher, Name.toMatcher, Matcher.Alike, Splat.name?]

/-- Links are alike at the same index, if their parts are. -/
theorem Matcher.alike_item_iff {h h' t t' : Matcher} {i : Int} {o o' : Option Span}
    {p q : Prop} (hp : h.Alike h' ↔ p) (hq : t.Alike t' ↔ q) :
    (Matcher.item h t i o).Alike (.item h' t' i o') ↔ p ∧ q := by
  rw [Matcher.Alike, hp, hq, eq_self_iff_true, and_true]

mutual

/-- Matchers of patterns are alike exactly if the patterns are. -/
theorem Pattern.alike_toMatcher_iff {source source' : String} (p q : Pattern Literal)
    {m n : Matcher} (hm : p.toMatcher source = .ok m) (hn : q.toMatcher source' = .ok n) :
    m.Alike n ↔ p.Alike q := by
  cases p with
  | literal | name =>
    cases hm
    cases q with
    | array e' fs => obtain ⟨h, t, o, rfl | rfl⟩ := fs.exists_link hn <;> exact Iff.rfl
    | _ =>
      cases hn
      exact Iff.rfl
  | empty e =>
    cases hm
    cases q with
    | array e' fs => obtain ⟨h, t, o, rfl | rfl⟩ := fs.exists_link hn <;> exact Iff.rfl
    | empty e' =>
      cases hn
      exact iff_of_true rfl trivial
    | _ =>
      cases hn
      exact Iff.rfl
  | array e es =>
    cases q with
    | array e' fs => exact es.alike_toMatcher_iff fs hm hn
    | _ =>
      cases hn
      obtain ⟨h, t, o, rfl | rfl⟩ := es.exists_link hm <;> exact Iff.rfl

theorem Elements.alike_toMatcher_iff {source source' : String} (es fs : Elements Literal)
    {m n : Matcher} (hm : es.toMatcher source = .ok m) (hn : fs.toMatcher source' = .ok n) :
    m.Alike n ↔ es.Alike fs := by
  cases es with
  | one e i =>
    cases i with
    | splat s =>
      cases hm
      cases fs with
      | one e' j =>
        cases j with
        | splat s' =>
          cases hn
          exact s.alike_closing_iff source source' e e' 0 s'
        | pattern q =>
          obtain ⟨h', hq, hn⟩ := bind_eq_ok_iff.mp hn
          cases hn
          exact Iff.rfl
      | more e' j d =>
        cases j with
        | splat s' => cases hn
        | pattern q =>
          obtain ⟨h', t', o', -, -, rfl⟩ := Elements.more_inversion hn
          exact Iff.rfl
    | pattern p =>
      obtain ⟨h, hp, hm⟩ := bind_eq_ok_iff.mp hm
      cases hm
      cases fs with
      | one e' j =>
        cases j with
        | splat s' =>
          cases hn
          exact Iff.rfl
        | pattern q =>
          obtain ⟨h', hq, hn⟩ := bind_eq_ok_iff.mp hn
          cases hn
          have hhead : h.Alike h' ↔ p.Alike q := p.alike_toMatcher_iff q hp hq
          exact ⟨fun hmn => hhead.mp hmn.1, fun hpq => ⟨hhead.mpr hpq, rfl, rfl⟩⟩
      | more e' j d =>
        cases j with
        | splat s' => cases hn
        | pattern q =>
          obtain ⟨h', t', o', hd, -, rfl⟩ := Elements.more_inversion hn
          exact iff_of_false (fun hmn => (d.not_alike_nothing hd).2 hmn.2.1) id
  | more e i c =>
    cases i with
    | splat s => cases hm
    | pattern p =>
      obtain ⟨h, t, o, hc, hp, rfl⟩ := Elements.more_inversion hm
      cases fs with
      | one e' j =>
        cases j with
        | splat s' =>
          cases hn
          exact Iff.rfl
        | pattern q =>
          obtain ⟨h', hq, hn⟩ := bind_eq_ok_iff.mp hn
          cases hn
          exact iff_of_false (fun hmn => (c.not_alike_nothing hc).1 hmn.2.1) id
      | more e' j d =>
        cases j with
        | splat s' => cases hn
        | pattern q =>
          obtain ⟨h', t', o', hd, hq, rfl⟩ := Elements.more_inversion hn
          exact Matcher.alike_item_iff (p.alike_toMatcher_iff q hp hq)
            (c.alike_toMatcher_iff d hc hd)

theorem Chain.alike_toMatcher_iff {source source' : String} {index : Int}
    (c d : Chain Literal) {m n : Matcher} (hm : c.toMatcher source index = .ok m)
    (hn : d.toMatcher source' index = .ok n) : m.Alike n ↔ c.Alike d := by
  cases c with
  | link e i c =>
    cases i with
    | splat s => cases hm
    | pattern p =>
      obtain ⟨h, t, o, hc, hp, rfl⟩ := Chain.link_inversion hm
      cases d with
      | link e' j d =>
        cases j with
        | splat s' => cases hn
        | pattern q =>
          obtain ⟨h', t', o', hd, hq, rfl⟩ := Chain.link_inversion hn
          exact Matcher.alike_item_iff (p.alike_toMatcher_iff q hp hq)
            (c.alike_toMatcher_iff d hc hd)
      | last e' q =>
        obtain ⟨h', hq, hn⟩ := bind_eq_ok_iff.mp hn
        cases hn
        exact Iff.rfl
      | lastSplat e' s' =>
        cases hn
        exact Iff.rfl
  | last e p =>
    obtain ⟨h, hp, hm⟩ := bind_eq_ok_iff.mp hm
    cases hm
    cases d with
    | link e' j d =>
      cases j with
      | splat s' => cases hn
      | pattern q =>
        obtain ⟨h', t', o', hd, hq, rfl⟩ := Chain.link_inversion hn
        exact Iff.rfl
    | last e' q =>
      obtain ⟨h', hq, hn⟩ := bind_eq_ok_iff.mp hn
      cases hn
      have helement : h.Alike h' ↔ p.Alike q := p.alike_toMatcher_iff q hp hq
      exact ⟨fun hmn => helement.mp hmn.1, fun hpq => ⟨helement.mpr hpq, rfl⟩⟩
    | lastSplat e' s' =>
      cases hn
      exact Iff.rfl
  | lastSplat e s =>
    cases hm
    cases d with
    | link e' j d =>
      cases j with
      | splat s' => cases hn
      | pattern q =>
        obtain ⟨h', t', o', hd, hq, rfl⟩ := Chain.link_inversion hn
        exact Iff.rfl
    | last e' q =>
      obtain ⟨h', hq, hn⟩ := bind_eq_ok_iff.mp hn
      cases hn
      exact Iff.rfl
    | lastSplat e' s' =>
      cases hn
      exact s.alike_closing_iff source source' e e' index s'

end

end Destructure
