/-
  Destructure/Proofs/Pattern/Walk.lean
  ====================================
  **Walking through a pattern** — the check of a pattern threads its findings
  through a tree of four kinds of node. `Pattern.sightings` lists what such a walk
  comes upon, a splat that other items follow and every bound name, in source
  order; the check is a fold over that list (`Pattern.check_eq_foldl`), and what is
  said of the check is said of the fold.

  Beside the list stand the two notions that breaches are stated with:
  `Pattern.Holds`, the arrays that occur in a pattern at any depth, and
  `Pattern.identifiers`, the names in the order of `Pattern.nodes`.
-/
import Destructure.Pattern.Node
import Destructure.Pattern.Violation
import Destructure.Proofs.Outcome

namespace Destructure

/-- What a walk through a pattern comes upon. -/
inductive Sighting where
  /-- A splat that other items follow. -/
  | strayed (splat : Splat)
  | bound (name : Name)
deriving DecidableEq, Repr

namespace Sighting

def offset : Sighting → Nat
  | strayed s => s.extent.start
  | bound n => n.extent.start

def name? : Sighting → Option Name
  | strayed _ => none
  | bound n => some n

end Sighting

/-- The findings behind a sighting. -/
def Findings.meet (f : Findings) : Sighting → Findings
  | .strayed s => f.breach (.splatNotLast s)
  | .bound n => f.bind n

def Splat.identifiers : Splat → List Name
  | named _ name => [name]
  | anonymous _ => []

section Walk

variable {α β ε : Type}

/-! ### What a walk comes upon -/

/-- What an item is to those that follow it. -/
def Item.strays : Item α → List Sighting
  | .pattern _ => []
  | .splat s => [.strayed s]

mutual

/-- What a walk through a pattern comes upon, in source order. -/
def Pattern.sightings : Pattern α → List Sighting
  | .literal .. | .empty _ => []
  | .name n => [.bound n]
  | .array _ es => es.sightings

def Elements.sightings : Elements α → List Sighting
  | .one _ i => i.sightings
  | .more _ i c => i.strays ++ i.sightings ++ c.sightings

def Item.sightings : Item α → List Sighting
  | .pattern p => p.sightings
  | .splat s => s.identifiers.map .bound

def Chain.sightings : Chain α → List Sighting
  | .link _ i c => i.strays ++ i.sightings ++ c.sightings
  | .last _ p => p.sightings
  | .lastSplat _ s => s.identifiers.map .bound

end

/-! ### The check as a fold -/

theorem Splat.check_eq_foldl (s : Splat) (f : Findings) :
    s.check f = (s.identifiers.map Sighting.bound).foldl Findings.meet f := by
  cases s <;> rfl

theorem Item.checkFollowed_eq_foldl (i : Item α) (f : Findings) :
    i.checkFollowed f = i.strays.foldl Findings.meet f := by
  cases i <;> rfl

mutual

/-- The check of a pattern is a fold over what a walk through it comes upon. -/
theorem Pattern.check_eq_foldl (p : Pattern α) (f : Findings) :
    p.check f = p.sightings.foldl Findings.meet f := by
  cases p with
  | literal e a => rfl
  | name n => rfl
  | empty e => rfl
  | array e es => rw [Pattern.check, Pattern.sightings, es.check_eq_foldl]

theorem Elements.check_eq_foldl (es : Elements α) (f : Findings) :
    es.check f = es.sightings.foldl Findings.meet f := by
  cases es with
  | one e i => rw [Elements.check, Elements.sightings, i.check_eq_foldl]
  | more e i c =>
    rw [Elements.check, Elements.sightings, List.foldl_append, List.foldl_append,
      i.checkFollowed_eq_foldl, i.check_eq_foldl, c.check_eq_foldl]

theorem Item.check_eq_foldl (i : Item α) (f : Findings) :
    i.check f = i.sightings.foldl Findings.meet f := by
  cases i with
  | pattern p => rw [Item.check, Item.sightings, p.check_eq_foldl]
  | splat s => rw [Item.check, Item.sightings, s.check_eq_foldl]

theorem Chain.check_eq_foldl (c : Chain α) (f : Findings) :
    c.check f = c.sightings.foldl Findings.meet f := by
  cases c with
  | link e i c =>
    rw [Chain.check, Chain.sightings, List.foldl_append, List.foldl_append,
      i.checkFollowed_eq_foldl, i.check_eq_foldl, c.check_eq_foldl]
  | last e p => rw [Chain.check, Chain.sightings, p.check_eq_foldl]
  | lastSplat e s => rw [Chain.check, Chain.sightings, s.check_eq_foldl]

end

/-! ### Arrays that occur in a pattern -/

def Chain.items : Chain α → List (Item α)
  | .link _ i c => i :: c.items
  | .last _ p => [.pattern p]
  | .lastSplat _ s => [.splat s]

def Elements.items : Elements α → List (Item α)
  | .one _ i => [i]
  | .more _ i c => i :: c.items

/-- An array with the given items occurs in the pattern, at whatever depth. -/
inductive Pattern.Holds : Pattern α → List (Item α) → Prop
  | here (e : Extent) (es : Elements α) : Holds (.array e es) es.items
  | inside (e : Extent) {es : Elements α} {q : Pattern α} {is : List (Item α)} :
      .pattern q ∈ es.items → Holds q is → Holds (.array e es) is

/-- The splat is one of some items, and another item stands behind it. -/
def Followed (s : Splat) (is : List (Item α)) : Prop :=
  ∃ before next after, is = before ++ .splat s :: next :: after

theorem Chain.items_ne_nil (c : Chain α) : c.items ≠ [] := by
  cases c <;> simp [Chain.items]

theorem followed_cons_iff (s : Splat) (i : Item α) (is : List (Item α)) :
    Followed s (i :: is) ↔ (i = .splat s ∧ is ≠ []) ∨ Followed s is := by
  constructor
  · rintro ⟨before, next, after, h⟩
    cases before with
    | nil =>
      simp only [List.nil_append, List.cons.injEq] at h
      exact Or.inl ⟨h.1, by simp [h.2]⟩
    | cons j before =>
      simp only [List.cons_append, List.cons.injEq] at h
      exact Or.inr ⟨before, next, after, h.2⟩
  · rintro (⟨rfl, hne⟩ | ⟨before, next, after, rfl⟩)
    · obtain ⟨next, after, rfl⟩ := List.exists_cons_of_ne_nil hne
      exact ⟨[], next, after, rfl⟩
    · exact ⟨i :: before, next, after, rfl⟩

theorem not_followed_singleton (s : Splat) (i : Item α) : ¬ Followed s [i] := by
  rw [followed_cons_iff]
  rintro (⟨-, hne⟩ | ⟨before, next, after, h⟩)
  · exact hne rfl
  · simp at h

theorem Pattern.holds_array_iff (e : Extent) (es : Elements α) (is : List (Item α)) :
    (Pattern.array e es).Holds is ↔ is = es.items ∨ ∃ q, .pattern q ∈ es.items ∧ q.Holds is := by
  constructor
  · intro h
    cases h with
    | here => exact Or.inl rfl
    | inside _ hq h => exact Or.inr ⟨_, hq, h⟩
  · rintro (rfl | ⟨q, hq, h⟩)
    · exact .here e es
    · exact .inside e hq h

/-- Some item is a pattern in which the splat strays. -/
def StraysWithin (s : Splat) (is : List (Item α)) : Prop :=
  ∃ q, .pattern q ∈ is ∧ ∃ js, q.Holds js ∧ Followed s js

theorem straysWithin_cons_iff (s : Splat) (i : Item α) (is : List (Item α)) :
    StraysWithin s (i :: is) ↔ StraysWithin s [i] ∨ StraysWithin s is := by
  constructor
  · rintro ⟨q, hq, h⟩
    rcases List.mem_cons.mp hq with hq | hq
    · exact Or.inl ⟨q, by simp [hq], h⟩
    · exact Or.inr ⟨q, hq, h⟩
  · rintro (⟨q, hq, h⟩ | ⟨q, hq, h⟩)
    · exact ⟨q, by simp [List.mem_singleton.mp hq], h⟩
    · exact ⟨q, List.mem_cons_of_mem i hq, h⟩

theorem straysWithin_pattern_iff (s : Splat) (p : Pattern α) :
    StraysWithin s [.pattern p] ↔ ∃ is, p.Holds is ∧ Followed s is := by
  constructor
  · rintro ⟨q, hq, h⟩
    simp only [List.mem_singleton, Item.pattern.injEq] at hq
    rwa [← hq]
  · intro h
    exact ⟨p, List.mem_singleton.mpr rfl, h⟩

theorem not_straysWithin_splat (s t : Splat) : ¬ StraysWithin s [Item.splat (α := α) t] := by
  rintro ⟨q, hq, -⟩
  simp at hq

theorem Item.strayed_mem_strays (i : Item α) (s : Splat) :
    .strayed s ∈ i.strays ↔ i = .splat s := by
  cases i with
  | pattern p => simp [Item.strays]
  | splat t => simp [Item.strays, eq_comm]

theorem strayed_not_mem_bound (s : Splat) (ns : List Name) :
    Sighting.strayed s ∉ ns.map Sighting.bound := by
  simp

mutual

/-- The walk comes upon the splats that are followed in some array of the pattern. -/
theorem Pattern.strayed_mem_sightings (p : Pattern α) (s : Splat) :
    .strayed s ∈ p.sightings ↔ ∃ is, p.Holds is ∧ Followed s is := by
  cases p with
  | literal e a =>
    simp only [Pattern.sightings, List.not_mem_nil, false_iff]
    rintro ⟨is, h, -⟩
    cases h
  | name n =>
    simp only [Pattern.sightings, List.mem_singleton, reduceCtorEq, false_iff]
    rintro ⟨is, h, -⟩
    cases h
  | empty e =>
    simp only [Pattern.sightings, List.not_mem_nil, false_iff]
    rintro ⟨is, h, -⟩
    cases h
  | array e es =>
    rw [Pattern.sightings, es.strayed_mem_sightings]
    -- the array is this one, or one that occurs in an item of it
    constructor
    · rintro (h | ⟨q, hq, is, hholds, h⟩)
      · exact ⟨es.items, .here e es, h⟩
      · exact ⟨is, .inside e hq hholds, h⟩
    · rintro ⟨is, hholds, h⟩
      rcases (Pattern.holds_array_iff e es is).mp hholds with rfl | ⟨q, hq, hholds⟩
      · exact Or.inl h
      · exact Or.inr ⟨q, hq, is, hholds, h⟩

theorem Elements.strayed_mem_sightings (es : Elements α) (s : Splat) :
    .strayed s ∈ es.sightings ↔ Followed s es.items ∨ StraysWithin s es.items := by
  cases es with
  | one e i =>
    have hnot := not_followed_singleton s i
    rw [Elements.sightings, Elements.items, i.strayed_mem_sightings]
    simp only [hnot, false_or]
  | more e i c =>
    rw [Elements.sightings, Elements.items, followed_cons_iff, straysWithin_cons_iff,
      List.mem_append, List.mem_append, i.strayed_mem_strays, i.strayed_mem_sightings,
      c.strayed_mem_sightings]
    -- a chain is never empty, so a splat before it is always followed
    simp only [ne_eq, c.items_ne_nil, not_false_eq_true, and_true]
    exact or_or_or_comm

theorem Item.strayed_mem_sightings (i : Item α) (s : Splat) :
    .strayed s ∈ i.sightings ↔ StraysWithin s [i] := by
  cases i with
  | pattern p => rw [Item.sightings, straysWithin_pattern_iff, p.strayed_mem_sightings]
  | splat t =>
    have hnot : ¬ StraysWithin s [Item.splat (α := α) t] := not_straysWithin_splat s t
    simp only [Item.sightings, strayed_not_mem_bound, hnot]

theorem Chain.strayed_mem_sightings (c : Chain α) (s : Splat) :
    .strayed s ∈ c.sightings ↔ Followed s c.items ∨ StraysWithin s c.items := by
  cases c with
  | link e i c =>
    rw [Chain.sightings, Chain.items, followed_cons_iff, straysWithin_cons_iff,
      List.mem_append, List.mem_append, i.strayed_mem_strays, i.strayed_mem_sightings,
      c.strayed_mem_sightings]
    simp only [ne_eq, c.items_ne_nil, not_false_eq_true, and_true]
    exact or_or_or_comm
  | last e p =>
    have hnot := not_followed_singleton s (.pattern p)
    rw [Chain.sightings, Chain.items, straysWithin_pattern_iff, p.strayed_mem_sightings]
    simp only [hnot, false_or]
  | lastSplat e t =>
    have hlast := not_followed_singleton s (Item.splat (α := α) t)
    have hnot : ¬ StraysWithin s [Item.splat (α := α) t] := not_straysWithin_splat s t
    simp only [Chain.sightings, Chain.items, strayed_not_mem_bound, hlast, hnot, or_self]

end

/-! ### The names of a pattern -/

mutual

/-- The names of a pattern, in the order in which its nodes are listed. -/
def Pattern.identifiers : Pattern α → List Name
  | .literal .. | .empty _ => []
  | .name n => [n]
  | .array _ es => es.identifiers

def Elements.identifiers : Elements α → List Name
  | .one _ i => i.identifiers
  | .more _ i c => i.identifiers ++ c.identifiers

def Item.identifiers : Item α → List Name
  | .pattern p => p.identifiers
  | .splat s => s.identifiers

def Chain.identifiers : Chain α → List Name
  | .link _ i c => i.identifiers ++ c.identifiers
  | .last _ p => p.identifiers
  | .lastSplat _ s => s.identifiers

end

theorem Item.filterMap_name?_strays (i : Item α) : i.strays.filterMap Sighting.name? = [] := by
  cases i <;> rfl

theorem filterMap_name?_bound (ns : List Name) :
    (ns.map Sighting.bound).filterMap Sighting.name? = ns := by
  induction ns with
  | nil => rfl
  | cons n ns ih => simpa [Sighting.name?] using ih

mutual

/-- The names that a walk comes upon are those of the pattern. -/
theorem Pattern.filterMap_name?_sightings (p : Pattern α) :
    p.sightings.filterMap Sighting.name? = p.identifiers := by
  cases p with
  | literal e a => rfl
  | name n => rfl
  | empty e => rfl
  | array e es => rw [Pattern.sightings, Pattern.identifiers, es.filterMap_name?_sightings]

theorem Elements.filterMap_name?_sightings (es : Elements α) :
    es.sightings.filterMap Sighting.name? = es.identifiers := by
  cases es with
  | one e i => rw [Elements.sightings, Elements.identifiers, i.filterMap_name?_sightings]
  | more e i c =>
    rw [Elements.sightings, Elements.identifiers, List.filterMap_append, List.filterMap_append,
      i.filterMap_name?_strays, i.filterMap_name?_sightings, c.filterMap_name?_sightings,
      List.nil_append]

theorem Item.filterMap_name?_sightings (i : Item α) :
    i.sightings.filterMap Sighting.name? = i.identifiers := by
  cases i with
  | pattern p => rw [Item.sightings, Item.identifiers, p.filterMap_name?_sightings]
  | splat s => rw [Item.sightings, Item.identifiers, filterMap_name?_bound]

theorem Chain.filterMap_name?_sightings (c : Chain α) :
    c.sightings.filterMap Sighting.name? = c.identifiers := by
  cases c with
  | link e i c =>
    rw [Chain.sightings, Chain.identifiers, List.filterMap_append, List.filterMap_append,
      i.filterMap_name?_strays, i.filterMap_name?_sightings, c.filterMap_name?_sightings,
      List.nil_append]
  | last e p => rw [Chain.sightings, Chain.identifiers, p.filterMap_name?_sightings]
  | lastSplat e s => rw [Chain.sightings, Chain.identifiers, filterMap_name?_bound]

end

/-- Whether a node is a name. -/
def Node.isIdentifier (n : Node) : Bool := n.kind == .identifier

theorem Splat.filter_nodes (s : Splat) :
    s.nodes.filter Node.isIdentifier = s.identifiers.map Name.node := by
  cases s <;> rfl

mutual

/-- The names are the identifiers among the nodes, in their order. -/
theorem Pattern.filter_nodes (p : Pattern Literal) :
    p.nodes.filter Node.isIdentifier = p.identifiers.map Name.node := by
  cases p with
  | literal e v => cases v <;> rfl
  | name n => rfl
  | empty e => rfl
  | array e es =>
    rw [Pattern.nodes, Pattern.identifiers, List.filter_cons_of_neg (by simp [Node.isIdentifier]),
      es.filter_nodes]

theorem Elements.filter_nodes (es : Elements Literal) :
    es.nodes.filter Node.isIdentifier = es.identifiers.map Name.node := by
  cases es with
  | one e i =>
    rw [Elements.nodes, Elements.identifiers,
      List.filter_cons_of_neg (by simp [Node.isIdentifier]), i.filter_nodes]
  | more e i c =>
    rw [Elements.nodes, Elements.identifiers,
      List.filter_cons_of_neg (by simp [Node.isIdentifier]), List.filter_append, i.filter_nodes,
      c.filter_nodes, List.map_append]

theorem Item.filter_nodes (i : Item Literal) :
    i.nodes.filter Node.isIdentifier = i.identifiers.map Name.node := by
  cases i with
  | pattern p => rw [Item.nodes, Item.identifiers, p.filter_nodes]
  | splat s => rw [Item.nodes, Item.identifiers, s.filter_nodes]

theorem Chain.filter_nodes (c : Chain Literal) :
    c.nodes.filter Node.isIdentifier = c.identifiers.map Name.node := by
  cases c with
  | link e i c =>
    rw [Chain.nodes, Chain.identifiers, List.filter_cons_of_neg (by simp [Node.isIdentifier]),
      List.filter_append, i.filter_nodes, c.filter_nodes, List.map_append]
  | last e p =>
    rw [Chain.nodes, Chain.identifiers, List.filter_cons_of_neg (by simp [Node.isIdentifier]),
      p.filter_nodes]
  | lastSplat e s =>
    rw [Chain.nodes, Chain.identifiers, List.filter_cons_of_neg (by simp [Node.isIdentifier]),
      s.filter_nodes]

end

/-! ### Literals put in place of their lexemes -/

theorem Item.strays_traverse {f : Extent → α → Except ε β} {i : Item α} {j : Item β}
    (h : i.traverse f = .ok j) : j.strays = i.strays := by
  cases i with
  | pattern p =>
    simp only [Item.traverse, bind_eq_ok_iff, pure_eq_ok, Except.ok.injEq] at h
    obtain ⟨q, -, rfl⟩ := h
    rfl
  | splat s =>
    simp only [Item.traverse, Except.ok.injEq] at h
    subst h
    rfl

mutual

/-- What stands at the literals does not matter to a walk. -/
theorem Pattern.sightings_traverse {f : Extent → α → Except ε β} (p : Pattern α)
    {q : Pattern β} (h : p.traverse f = .ok q) : q.sightings = p.sightings := by
  cases p with
  | literal e a =>
    simp only [Pattern.traverse, bind_eq_ok_iff, pure_eq_ok, Except.ok.injEq] at h
    obtain ⟨b, -, rfl⟩ := h
    rfl
  | name n =>
    simp only [Pattern.traverse, Except.ok.injEq] at h
    subst h
    rfl
  | empty e =>
    simp only [Pattern.traverse, Except.ok.injEq] at h
    subst h
    rfl
  | array e es =>
    simp only [Pattern.traverse, bind_eq_ok_iff, pure_eq_ok, Except.ok.injEq] at h
    obtain ⟨es', hes, rfl⟩ := h
    rw [Pattern.sightings, Pattern.sightings, es.sightings_traverse hes]

theorem Elements.sightings_traverse {f : Extent → α → Except ε β} (es : Elements α)
    {es' : Elements β} (h : es.traverse f = .ok es') : es'.sightings = es.sightings := by
  cases es with
  | one e i =>
    simp only [Elements.traverse, bind_eq_ok_iff, pure_eq_ok, Except.ok.injEq] at h
    obtain ⟨j, hi, rfl⟩ := h
    rw [Elements.sightings, Elements.sightings, i.sightings_traverse hi]
  | more e i c =>
    simp only [Elements.traverse, bind_eq_ok_iff, pure_eq_ok, Except.ok.injEq] at h
    obtain ⟨j, hi, c', hc, rfl⟩ := h
    rw [Elements.sightings, Elements.sightings, i.sightings_traverse hi,
      c.sightings_traverse hc, Item.strays_traverse hi]

theorem Item.sightings_traverse {f : Extent → α → Except ε β} (i : Item α)
    {j : Item β} (h : i.traverse f = .ok j) : j.sightings = i.sightings := by
  cases i with
  | pattern p =>
    simp only [Item.traverse, bind_eq_ok_iff, pure_eq_ok, Except.ok.injEq] at h
    obtain ⟨q, hp, rfl⟩ := h
    rw [Item.sightings, Item.sightings, p.sightings_traverse hp]
  | splat s =>
    simp only [Item.traverse, Except.ok.injEq] at h
    subst h
    rfl

theorem Chain.sightings_traverse {f : Extent → α → Except ε β} (c : Chain α)
    {d : Chain β} (h : c.traverse f = .ok d) : d.sightings = c.sightings := by
  cases c with
  | link e i c =>
    simp only [Chain.traverse, bind_eq_ok_iff, pure_eq_ok, Except.ok.injEq] at h
    obtain ⟨j, hi, c', hc, rfl⟩ := h
    rw [Chain.sightings, Chain.sightings, i.sightings_traverse hi, c.sightings_traverse hc,
      Item.strays_traverse hi]
  | last e p =>
    simp only [Chain.traverse, bind_eq_ok_iff, pure_eq_ok, Except.ok.injEq] at h
    obtain ⟨q, hp, rfl⟩ := h
    rw [Chain.sightings, Chain.sightings, p.sightings_traverse hp]
  | lastSplat e s =>
    simp only [Chain.traverse, Except.ok.injEq] at h
    subst h
    rfl

end

end Walk

end Destructure
