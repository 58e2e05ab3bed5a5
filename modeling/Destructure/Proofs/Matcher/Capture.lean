/-
  Destructure/Proofs/Matcher/Capture.lean
  =======================================
  **What a matcher captures** — where a matcher is defined, its bindings are taken
  without another look at the shape of the value: every element that is asked for is
  there. They come under the names of the matcher, in order, if the names differ, and
  fail over a name that is captured twice if they do not.
-/
import Mathlib.Data.List.Duplicate
import Destructure.Matcher.OfPattern
import Destructure.Proofs.Outcome
import Destructure.Proofs.Pattern.Walk

namespace Destructure

/-! ### Merging -/

theorem merge_eq_ok {left right : Bindings} (h : ∀ b ∈ right, b.1 ∉ left.map (·.1)) :
    left.merge right = .ok (left ++ right) := by
  have hnone : (right.find? fun b => left.any (·.1 == b.1)) = none := by
    rw [List.find?_eq_none]
    intro b hb hany
    rw [List.any_eq_true] at hany
    obtain ⟨a, ha, heq⟩ := hany
    exact h b hb (List.mem_map.mpr ⟨a, ha, beq_iff_eq.mp heq⟩)
  rw [Bindings.merge, hnone]

theorem merge_eq_error {left right : Bindings} (h : ¬ ∀ b ∈ right, b.1 ∉ left.map (·.1)) :
    ∃ n ∈ left.map (·.1), n ∈ right.map (·.1) ∧ left.merge right = .error (.conflict n none) := by
  cases hfind : right.find? fun b => left.any (·.1 == b.1) with
  | none =>
    rw [List.find?_eq_none] at hfind
    refine absurd ?_ h
    intro b hb hmem
    obtain ⟨a, ha, heq⟩ := List.mem_map.mp hmem
    exact hfind b hb (List.any_eq_true.mpr ⟨a, ha, beq_iff_eq.mpr heq⟩)
  | some b =>
    have hany := List.find?_some hfind
    obtain ⟨a, ha, heq⟩ := List.any_eq_true.mp hany
    refine ⟨b.1, List.mem_map.mpr ⟨a, ha, beq_iff_eq.mp heq⟩, ?_, ?_⟩
    · exact List.mem_map_of_mem (List.mem_of_find?_eq_some hfind)
    · rw [Bindings.merge, hfind]

theorem eq_append_of_merge {left right bs : Bindings} (h : left.merge right = .ok bs) :
    bs = left ++ right := by
  unfold Bindings.merge at h
  split at h
  · cases h
  · exact (Except.ok.inj h).symm

/-! ### Names of a matcher -/

/-- The names that a matcher captures under, in order; the tail behind a remainder is
    never asked. -/
def Matcher.names : Matcher → List String
  | capture name _ => [name]
  | literal .. | equalTo .. | nothing .. | anything _ => []
  | item head tail _ _ => head.names ++ tail.names
  | remainder head _ _ _ => head.names
  | last element _ _ => element.names

/-- The bindings are made under the names, or fail over one of them that occurs
    twice. -/
def Captures (r : Except Failure Bindings) (names : List String) : Prop :=
  (∃ bs, r = .ok bs ∧ bs.map (·.1) = names ∧ names.Nodup) ∨
    ∃ n, r = .error (.conflict n none) ∧ List.Duplicate n names

namespace Captures

variable {r s : Except Failure Bindings} {ns ms : List String}

/-- Merged, two captures are one under the names of both. -/
theorem merge (hr : Captures r ns) (hs : Captures s ms) :
    Captures (r >>= fun left => s >>= left.merge) (ns ++ ms) := by
  rcases hr with ⟨left, rfl, rfl, hns⟩ | ⟨n, rfl, hn⟩
  · rcases hs with ⟨right, rfl, rfl, hms⟩ | ⟨m, rfl, hm⟩
    · by_cases hdisjoint : ∀ b ∈ right, b.1 ∉ left.map (·.1)
      · refine Or.inl ⟨left ++ right, ?_, List.map_append, ?_⟩
        · exact merge_eq_ok hdisjoint
        · rw [List.nodup_append]
          refine ⟨hns, hms, ?_⟩
          rintro a ha b hb rfl
          obtain ⟨c, hc, rfl⟩ := List.mem_map.mp hb
          exact hdisjoint c hc ha
      · -- the name that is complained about stands on both sides
        obtain ⟨n, hleft, hright, herror⟩ := merge_eq_error hdisjoint
        refine Or.inr ⟨n, herror, ?_⟩
        rw [List.duplicate_iff_sublist, ← List.singleton_append]
        exact (List.singleton_sublist.mpr hleft).append (List.singleton_sublist.mpr hright)
    · exact Or.inr ⟨m, rfl, hm.mono_sublist (List.sublist_append_right _ _)⟩
  · exact Or.inr ⟨n, rfl, hn.mono_sublist (List.sublist_append_left _ _)⟩

end Captures

/-! ### Bindings where the matcher is defined -/

theorem isSequence_of_length? {v : Value} {n : Nat} (h : v.length? = .ok (some n)) :
    v.isSequence = true := by
  cases hv : v.isSequence with
  | true => rfl
  | false =>
    rw [Value.length?, hv] at h
    cases h

theorem orFault_eq_ok {α : Type} {r : Except Fault α} {x : α} (h : r = .ok x) :
    orFault r = .ok x := by
  rw [h]
  rfl

namespace Matcher

variable {head tail element : Matcher} {index : Int} {origin : Option Span} {v x : Value}

theorem definedAt_nothing_inv (h : (nothing index origin).definedAt v = .ok true) :
    ∃ n : Nat, v.length? = .ok (some n) ∧ (n : Int) = index := by
  obtain ⟨length, hlength, h⟩ := bind_eq_ok_iff.mp h
  cases length with
  | none => cases h
  | some n =>
    refine ⟨n, hlength, ?_⟩
    simpa using h

theorem definedAt_item_inv (h : (item head tail index origin).definedAt v = .ok true) :
    (∃ n : Nat, v.length? = .ok (some n) ∧ index < n) ∧
      ∃ x, v.element index = .ok x ∧ head.definedAt x = .ok true ∧ tail.definedAt v = .ok true := by
  obtain ⟨length, hlength, h⟩ := bind_eq_ok_iff.mp h
  cases length with
  | none => cases h
  | some n =>
    dsimp only at h
    split at h
    · next hindex =>
      obtain ⟨x, hx, h⟩ := bind_eq_ok_iff.mp h
      obtain ⟨b, hhead, h⟩ := bind_eq_ok_iff.mp h
      cases b with
      | false => cases h
      | true => exact ⟨⟨n, hlength, hindex⟩, x, hx, hhead, h⟩
    · cases h

theorem definedAt_last_inv (h : (last element index origin).definedAt v = .ok true) :
    (∃ n : Nat, v.length? = .ok (some n) ∧ index + 1 = n) ∧
      ∃ x, v.element index = .ok x ∧ element.definedAt x = .ok true := by
  obtain ⟨length, hlength, h⟩ := bind_eq_ok_iff.mp h
  cases length with
  | none => cases h
  | some n =>
    dsimp only at h
    split at h
    · next hindex =>
      obtain ⟨x, hx, h⟩ := bind_eq_ok_iff.mp h
      exact ⟨⟨n, hlength, beq_iff_eq.mp hindex⟩, x, hx, h⟩
    · cases h

/-- What takes a remainder is asked about it, unless it takes any. -/
theorem definedAt_remainder_inv (h : (remainder head tail index origin).definedAt v = .ok true) :
    (∃ n : Nat, v.length? = .ok (some n) ∧ index ≤ n) ∧
      (head.isAnything = true ∨ head.isAnything = false ∧
        ∃ x, v.suffix index = .ok x ∧ head.definedAt x = .ok true) := by
  obtain ⟨length, hlength, h⟩ := bind_eq_ok_iff.mp h
  cases length with
  | none => cases h
  | some n =>
    dsimp only at h
    split at h
    · cases h
    · next hindex =>
      refine ⟨⟨n, hlength, by omega⟩, ?_⟩
      cases hanything : head.isAnything with
      | true => exact Or.inl rfl
      | false =>
        rw [hanything] at h
        obtain ⟨x, hx, h⟩ := bind_eq_ok_iff.mp h
        exact Or.inr ⟨rfl, x, hx, h⟩

theorem bindings_item (hsequence : v.isSequence = true) (hx : v.element index = .ok x) :
    (item head tail index origin).bindings v =
      (head.bindings x >>= fun left => tail.bindings v >>= left.merge) := by
  rw [bindings, if_pos hsequence, orFault_eq_ok hx]
  rfl

theorem bindings_last (hsequence : v.isSequence = true) (hx : v.element index = .ok x) :
    (last element index origin).bindings v = element.bindings x := by
  rw [bindings, if_pos hsequence, orFault_eq_ok hx]
  rfl

theorem bindings_remainder (hsequence : v.isSequence = true) (hhead : head.isAnything = false)
    (hx : v.suffix index = .ok x) :
    (remainder head tail index origin).bindings v = head.bindings x := by
  rw [bindings, if_pos hsequence, hhead, orFault_eq_ok hx]
  rfl

theorem bindings_remainder_anything (hsequence : v.isSequence = true)
    (hhead : head.isAnything = true) :
    (remainder head tail index origin).bindings v = .ok [] := by
  rw [bindings, if_pos hsequence, if_pos hhead]

end Matcher

/-- Where a matcher is defined, it captures under its names. -/
theorem Matcher.captures (m : Matcher) (v : Value) (h : m.definedAt v = .ok true) :
    Captures (m.bindings v) m.names := by
  induction m generalizing v with
  | capture name o => exact Or.inl ⟨[(name, v)], rfl, rfl, List.nodup_singleton name⟩
  | literal | equalTo | nothing | anything => exact Or.inl ⟨[], rfl, rfl, List.nodup_nil⟩
  | item head tail index o ihhead ihtail =>
    obtain ⟨⟨n, hlength, -⟩, x, hx, hhead, htail⟩ := definedAt_item_inv h
    rw [bindings_item (isSequence_of_length? hlength) hx]
    exact (ihhead x hhead).merge (ihtail v htail)
  | remainder head tail index o ihhead ihtail =>
    obtain ⟨⟨n, hlength, -⟩, hrest⟩ := definedAt_remainder_inv h
    have hsequence := isSequence_of_length? hlength
    rcases hrest with hanything | ⟨hnot, x, hx, hhead⟩
    · -- `*_` keeps nothing, and its head is not asked
      rw [bindings_remainder_anything hsequence hanything]
      cases head <;> cases hanything
      exact Or.inl ⟨[], rfl, rfl, List.nodup_nil⟩
    · rw [bindings_remainder hsequence hnot hx]
      exact ihhead x hhead
  | last element index o ih =>
    obtain ⟨⟨n, hlength, -⟩, x, hx, helement⟩ := definedAt_last_inv h
    rw [bindings_last (isSequence_of_length? hlength) hx]
    exact ih x helement

theorem Matcher.exists_bindings {m : Matcher} {v : Value} (hnodup : m.names.Nodup)
    (hdefined : m.definedAt v = .ok true) : ∃ bs, m.bindings v = .ok bs := by
  rcases m.captures v hdefined with ⟨bs, hbs, -⟩ | ⟨n, -, hduplicate⟩
  · exact ⟨bs, hbs⟩
  · exact absurd hnodup hduplicate.not_nodup

theorem Matcher.keys_of_bindings {m : Matcher} {v : Value} {bs : Bindings}
    (hdefined : m.definedAt v = .ok true) (hbs : m.bindings v = .ok bs) :
    bs.map (·.1) = m.names := by
  rcases m.captures v hdefined with ⟨bs', hok, hkeys, -⟩ | ⟨n, herror, -⟩
  · rw [hbs, Except.ok.injEq] at hok
    rw [hok, hkeys]
  · rw [hbs] at herror
    cases herror

/-- Where a matcher is defined, its bindings depend on its names alone: they are made
    under the names, in their order, if these differ, and otherwise fail over a name
    that is captured twice. They never fail in another way, whatever the indices of the
    matcher are and however it has been made. -/
theorem Matcher.bindings_where_defined (m : Matcher) (v : Value) (h : m.definedAt v = .ok true) :
    (m.names.Nodup → ∃ bs, m.bindings v = .ok bs ∧ bs.map (·.1) = m.names) ∧
      (¬ m.names.Nodup →
        ∃ n, List.Duplicate n m.names ∧ m.bindings v = .error (.conflict n none)) := by
  rcases m.captures v h with ⟨bs, hbs, hkeys, hnodup⟩ | ⟨n, herror, hduplicate⟩
  · exact ⟨fun _ => ⟨bs, hbs, hkeys⟩, fun hnot => absurd hnodup hnot⟩
  · exact ⟨fun hnodup => absurd hnodup hduplicate.not_nodup, fun _ => ⟨n, hduplicate, herror⟩⟩

/-- Two matchers that no pattern text has: an element counted from the end, and a name
    that an array in the place of a splat captures again. -/
theorem Matcher.bindings_where_defined_by_hand :
    let pair : Value := .list [.integer 1, .integer 2]
    let fromEnd := item (capture "a" none) (item (capture "b" none) (nothing 2 none) (-1) none) 0
      none
    let twice := item (capture "a" none)
      (remainder (last (capture "a" none) 0 none) (capture "c" none) 1 none) 0 none
    (∃ bs, fromEnd.bindings pair = .ok bs ∧ bs.map (·.1) = ["a", "b"]) ∧
      ∃ n, twice.bindings pair = .error (.conflict n none) := by
  intro pair fromEnd twice
  refine ⟨(bindings_where_defined fromEnd pair (by rfl)).1 (by decide), ?_⟩
  obtain ⟨n, -, hconflict⟩ := (bindings_where_defined twice pair (by rfl)).2 (by decide)
  exact ⟨n, hconflict⟩

/-! ### Names of a pattern -/

theorem Splat.names_closing (source : String) (e : Extent) (i : Int) (s : Splat) :
    (s.closing source e i).names = s.identifiers.map Name.text := by
  cases s <;> rfl

mutual

/-- The matcher of a pattern captures under the names of the pattern. -/
theorem Pattern.names_toMatcher {source : String} (p : Pattern Literal) {m : Matcher}
    (hm : p.toMatcher source = .ok m) : m.names = p.identifiers.map Name.text := by
  cases p with
  | literal e v =>
    cases hm
    rfl
  | name n =>
    cases hm
    rfl
  | empty e =>
    cases hm
    rfl
  | array e es => exact es.names_toMatcher hm

theorem Elements.names_toMatcher {source : String} (es : Elements Literal) {m : Matcher}
    (hm : es.toMatcher source = .ok m) : m.names = es.identifiers.map Name.text := by
  cases es with
  | one e i =>
    cases i with
    | splat s =>
      cases hm
      exact s.names_closing source e 0
    | pattern p =>
      obtain ⟨h, hp, hm⟩ := bind_eq_ok_iff.mp hm
      cases hm
      rw [Matcher.names, p.names_toMatcher hp, Matcher.names, List.append_nil]
      rfl
  | more e i c =>
    cases i with
    | splat s => cases hm
    | pattern p =>
      obtain ⟨t, hc, hm⟩ := bind_eq_ok_iff.mp hm
      obtain ⟨h, hp, hm⟩ := bind_eq_ok_iff.mp hm
      cases hm
      rw [Matcher.names, p.names_toMatcher hp, c.names_toMatcher hc, Elements.identifiers,
        List.map_append]
      rfl

theorem Chain.names_toMatcher {source : String} {index : Int} (c : Chain Literal) {m : Matcher}
    (hm : c.toMatcher source index = .ok m) : m.names = c.identifiers.map Name.text := by
  cases c with
  | link e i c =>
    cases i with
    | splat s => cases hm
    | pattern p =>
      obtain ⟨h, hp, hm⟩ := bind_eq_ok_iff.mp hm
      obtain ⟨t, hc, hm⟩ := bind_eq_ok_iff.mp hm
      cases hm
      rw [Matcher.names, p.names_toMatcher hp, c.names_toMatcher hc, Chain.identifiers,
        List.map_append]
      rfl
  | last e p =>
    obtain ⟨h, hp, hm⟩ := bind_eq_ok_iff.mp hm
    cases hm
    rw [Matcher.names, p.names_toMatcher hp]
    rfl
  | lastSplat e s =>
    cases hm
    exact s.names_closing source e index

end

end Destructure
