/-
  Destructure/Proofs/Pattern/Parts.lean
  =====================================
  **The parts of a pattern** — every construct of a pattern with all that is inside it,
  in the order in which the nodes are listed. A part knows its children, and the list is
  a part followed by the lists of its children (`Part.parts_eq`). So what holds of a
  pattern and passes on to children holds of every part (`Pattern.forall_parts`): all
  that is said of every node of a tree is said of one node and its children first.
-/
import Mathlib.Data.List.Forall2
import Destructure.Pattern.Node
import Destructure.Proofs.Outcome

namespace Destructure

/-- A construct of a pattern with all that is inside it. -/
inductive Part (α : Type) where
  | pattern (p : Pattern α)
  | elements (es : Elements α)
  | chain (c : Chain α)
  | splat (s : Splat)

section Parts

variable {α β ε : Type}

def Part.extent : Part α → Extent
  | pattern p => p.extent
  | elements es => es.extent
  | chain c => c.extent
  | splat s => s.extent

def Item.part : Item α → Part α
  | .pattern p => .pattern p
  | .splat s => .splat s

/-- The parts right below a part, from left to right. -/
def Part.children : Part α → List (Part α)
  | pattern (.array _ es) => [elements es]
  | pattern _ => []
  | elements (.one _ i) => [i.part]
  | elements (.more _ i c) => [i.part, chain c]
  | chain (.link _ i c) => [i.part, chain c]
  | chain (.last _ p) => [pattern p]
  | chain (.lastSplat _ s) => [splat s]
  | splat (.named _ n) => [pattern (.name n)]
  | splat (.anonymous _) => []

def Splat.parts : Splat → List (Part α)
  | named e n => [.splat (named e n), .pattern (.name n)]
  | anonymous e => [.splat (anonymous e)]

mutual

/-- All parts of a pattern, itself first. -/
def Pattern.parts : Pattern α → List (Part α)
  | .literal e a => [.pattern (.literal e a)]
  | .name n => [.pattern (.name n)]
  | .empty e => [.pattern (.empty e)]
  | .array e es => .pattern (.array e es) :: es.parts

def Elements.parts : Elements α → List (Part α)
  | .one e i => .elements (.one e i) :: i.parts
  | .more e i c => .elements (.more e i c) :: (i.parts ++ c.parts)

def Item.parts : Item α → List (Part α)
  | .pattern p => p.parts
  | .splat s => s.parts

def Chain.parts : Chain α → List (Part α)
  | .link e i c => .chain (.link e i c) :: (i.parts ++ c.parts)
  | .last e p => .chain (.last e p) :: p.parts
  | .lastSplat e s => .chain (.lastSplat e s) :: s.parts

end

def Part.parts : Part α → List (Part α)
  | pattern p => p.parts
  | elements es => es.parts
  | chain c => c.parts
  | splat s => s.parts

theorem Item.parts_part (i : Item α) : i.part.parts = i.parts := by
  cases i <;> rfl

/-- A part comes first, and then the parts of its children in their order. -/
theorem Part.parts_eq (a : Part α) : a.parts = a :: a.children.flatMap parts := by
  cases a with
  | pattern p =>
    cases p <;> simp only [children, List.flatMap_cons, List.flatMap_nil, List.append_nil] <;> rfl
  | elements es =>
    cases es <;>
      simp only [children, List.flatMap_cons, List.flatMap_nil, List.append_nil, Item.parts_part] <;>
      rfl
  | chain c =>
    cases c <;>
      simp only [children, List.flatMap_cons, List.flatMap_nil, List.append_nil, Item.parts_part] <;>
      rfl
  | splat s =>
    cases s <;> simp only [children, List.flatMap_cons, List.flatMap_nil, List.append_nil] <;> rfl

theorem Part.mem_parts_self (a : Part α) : a ∈ a.parts := by
  rw [a.parts_eq]
  exact List.mem_cons_self

theorem Part.parts_subset_of_mem_children {a b : Part α} (hb : b ∈ a.children) :
    b.parts ⊆ a.parts := by
  intro x hx
  rw [a.parts_eq]
  exact List.mem_cons_of_mem a (List.mem_flatMap.mpr ⟨b, hb, hx⟩)

/-! ### What passes on to children -/

section Forall

variable {Q : Part α → Prop}

theorem Splat.forall_parts (hstep : ∀ a, Q a → ∀ b ∈ a.children, Q b) (s : Splat)
    (h : Q (.splat s)) : ∀ a ∈ s.parts, Q a := by
  intro a ha
  cases s with
  | named e n =>
    rcases List.mem_cons.mp ha with rfl | ha
    · exact h
    · exact hstep _ h a ha
  | anonymous e =>
    rw [List.mem_singleton.mp ha]
    exact h

mutual

/-- What holds of a pattern and passes on to children holds of all its parts. -/
theorem Pattern.forall_parts (hstep : ∀ a, Q a → ∀ b ∈ a.children, Q b) (p : Pattern α)
    (h : Q (.pattern p)) : ∀ a ∈ p.parts, Q a := by
  intro a ha
  cases p with
  | literal e v =>
    rw [List.mem_singleton.mp ha]
    exact h
  | name n =>
    rw [List.mem_singleton.mp ha]
    exact h
  | empty e =>
    rw [List.mem_singleton.mp ha]
    exact h
  | array e es =>
    rcases List.mem_cons.mp ha with rfl | ha
    · exact h
    · exact es.forall_parts hstep (hstep _ h _ (List.mem_singleton.mpr rfl)) a ha

theorem Elements.forall_parts (hstep : ∀ a, Q a → ∀ b ∈ a.children, Q b) (es : Elements α)
    (h : Q (.elements es)) : ∀ a ∈ es.parts, Q a := by
  intro a ha
  cases es with
  | one e i =>
    rcases List.mem_cons.mp ha with rfl | ha
    · exact h
    · exact i.forall_parts hstep (hstep _ h _ (List.mem_singleton.mpr rfl)) a ha
  | more e i c =>
    rcases List.mem_cons.mp ha with rfl | ha
    · exact h
    · rcases List.mem_append.mp ha with ha | ha
      · exact i.forall_parts hstep (hstep _ h _ (by simp [Part.children])) a ha
      · exact c.forall_parts hstep (hstep _ h _ (by simp [Part.children])) a ha

theorem Item.forall_parts (hstep : ∀ a, Q a → ∀ b ∈ a.children, Q b) (i : Item α)
    (h : Q i.part) : ∀ a ∈ i.parts, Q a := by
  cases i with
  | pattern p => exact p.forall_parts hstep h
  | splat s => exact s.forall_parts hstep h

theorem Chain.forall_parts (hstep : ∀ a, Q a → ∀ b ∈ a.children, Q b) (c : Chain α)
    (h : Q (.chain c)) : ∀ a ∈ c.parts, Q a := by
  intro a ha
  cases c with
  | link e i c =>
    rcases List.mem_cons.mp ha with rfl | ha
    · exact h
    · rcases List.mem_append.mp ha with ha | ha
      · exact i.forall_parts hstep (hstep _ h _ (by simp [Part.children])) a ha
      · exact c.forall_parts hstep (hstep _ h _ (by simp [Part.children])) a ha
  | last e p =>
    rcases List.mem_cons.mp ha with rfl | ha
    · exact h
    · exact p.forall_parts hstep (hstep _ h _ (List.mem_singleton.mpr rfl)) a ha
  | lastSplat e s =>
    rcases List.mem_cons.mp ha with rfl | ha
    · exact h
    · exact s.forall_parts hstep (hstep _ h _ (List.mem_singleton.mpr rfl)) a ha

end

end Forall

/-- The children of a part are parts. -/
theorem Pattern.mem_parts_of_mem_children {p : Pattern α} {a b : Part α} (ha : a ∈ p.parts)
    (hb : b ∈ a.children) : b ∈ p.parts := by
  have hsubset : ∀ a ∈ p.parts, a.parts ⊆ p.parts := by
    refine p.forall_parts ?_ (List.Subset.refl _)
    intro a h b hb
    exact List.Subset.trans (Part.parts_subset_of_mem_children hb) h
  exact hsubset a ha (Part.parts_subset_of_mem_children hb b.mem_parts_self)

/-! ### Literals put in place of their lexemes -/

/-- Replaces what stands at the literals of a part. -/
def Part.traverse (f : Extent → α → Except ε β) : Part α → Except ε (Part β)
  | pattern p => do return pattern (← p.traverse f)
  | elements es => do return elements (← es.traverse f)
  | chain c => do return chain (← c.traverse f)
  | splat s => .ok (splat s)

theorem Item.traverse_part {f : Extent → α → Except ε β} {i : Item α} {j : Item β}
    (h : i.traverse f = .ok j) : i.part.traverse f = .ok j.part := by
  cases i with
  | pattern p =>
    simp only [Item.traverse, bind_eq_ok_iff, pure_eq_ok, Except.ok.injEq] at h
    obtain ⟨q, hq, rfl⟩ := h
    simp only [Item.part, Part.traverse, hq, ok_bind, pure_eq_ok]
  | splat s =>
    simp only [Item.traverse, Except.ok.injEq] at h
    subst h
    rfl

section Traverse

variable {f : Extent → α → Except ε β}

/-- The children of the first part turn into those of the second, and the second stands
    in the place of the first. -/
def Part.ChildrenTurn (f : Extent → α → Except ε β) (a : Part α) (b : Part β) : Prop :=
  List.Forall₂ (fun x y => x.traverse f = .ok y) a.children b.children ∧ b.extent = a.extent

theorem Pattern.traverse_children {p : Pattern α} {q : Pattern β} (h : p.traverse f = .ok q) :
    Part.ChildrenTurn f (.pattern p) (.pattern q) := by
  cases p with
  | literal e v =>
    simp only [Pattern.traverse, bind_eq_ok_iff, pure_eq_ok, Except.ok.injEq] at h
    obtain ⟨w, -, rfl⟩ := h
    exact ⟨.nil, rfl⟩
  | name n =>
    cases h
    exact ⟨.nil, rfl⟩
  | empty e =>
    cases h
    exact ⟨.nil, rfl⟩
  | array e es =>
    simp only [Pattern.traverse, bind_eq_ok_iff, pure_eq_ok, Except.ok.injEq] at h
    obtain ⟨es', hes, rfl⟩ := h
    refine ⟨.cons ?_ .nil, rfl⟩
    simp only [Part.traverse, hes, ok_bind, pure_eq_ok]

theorem Elements.traverse_children {es : Elements α} {es' : Elements β}
    (h : es.traverse f = .ok es') : Part.ChildrenTurn f (.elements es) (.elements es') := by
  cases es with
  | one e i =>
    simp only [Elements.traverse, bind_eq_ok_iff, pure_eq_ok, Except.ok.injEq] at h
    obtain ⟨j, hj, rfl⟩ := h
    exact ⟨.cons (Item.traverse_part hj) .nil, rfl⟩
  | more e i c =>
    simp only [Elements.traverse, bind_eq_ok_iff, pure_eq_ok, Except.ok.injEq] at h
    obtain ⟨j, hj, d, hd, rfl⟩ := h
    refine ⟨.cons (Item.traverse_part hj) (.cons ?_ .nil), rfl⟩
    simp only [Part.traverse, hd, ok_bind, pure_eq_ok]

theorem Chain.traverse_children {c : Chain α} {d : Chain β} (h : c.traverse f = .ok d) :
    Part.ChildrenTurn f (.chain c) (.chain d) := by
  cases c with
  | link e i c =>
    simp only [Chain.traverse, bind_eq_ok_iff, pure_eq_ok, Except.ok.injEq] at h
    obtain ⟨j, hj, d, hd, rfl⟩ := h
    refine ⟨.cons (Item.traverse_part hj) (.cons ?_ .nil), rfl⟩
    simp only [Part.traverse, hd, ok_bind, pure_eq_ok]
  | last e p =>
    simp only [Chain.traverse, bind_eq_ok_iff, pure_eq_ok, Except.ok.injEq] at h
    obtain ⟨q, hq, rfl⟩ := h
    refine ⟨.cons ?_ .nil, rfl⟩
    simp only [Part.traverse, hq, ok_bind, pure_eq_ok]
  | lastSplat e s =>
    cases h
    exact ⟨.cons rfl .nil, rfl⟩

/-- The children of a part turn into those of what the part turns into. -/
theorem Part.traverse_children {a : Part α} {b : Part β} (h : a.traverse f = .ok b) :
    a.ChildrenTurn f b := by
  cases a with
  | pattern p =>
    simp only [traverse, bind_eq_ok_iff, pure_eq_ok, Except.ok.injEq] at h
    obtain ⟨q, hq, rfl⟩ := h
    exact Pattern.traverse_children hq
  | elements es =>
    simp only [traverse, bind_eq_ok_iff, pure_eq_ok, Except.ok.injEq] at h
    obtain ⟨es', hes, rfl⟩ := h
    exact Elements.traverse_children hes
  | chain c =>
    simp only [traverse, bind_eq_ok_iff, pure_eq_ok, Except.ok.injEq] at h
    obtain ⟨d, hd, rfl⟩ := h
    exact Chain.traverse_children hd
  | splat s =>
    cases h
    cases s with
    | named e n => exact ⟨.cons rfl .nil, rfl⟩
    | anonymous e => exact ⟨.nil, rfl⟩

/-- Only a pattern turns into a pattern. -/
theorem Part.traverse_pattern_inv {a : Part α} {q : Pattern β}
    (h : a.traverse f = .ok (.pattern q)) : ∃ p, a = .pattern p ∧ p.traverse f = .ok q := by
  cases a with
  | pattern p =>
    simp only [traverse, bind_eq_ok_iff, pure_eq_ok, Except.ok.injEq, pattern.injEq] at h
    obtain ⟨_, hq, rfl⟩ := h
    exact ⟨p, rfl, hq⟩
  | elements es =>
    simp only [traverse, bind_eq_ok_iff, pure_eq_ok, Except.ok.injEq] at h
    obtain ⟨_, -, h⟩ := h
    cases h
  | chain c =>
    simp only [traverse, bind_eq_ok_iff, pure_eq_ok, Except.ok.injEq] at h
    obtain ⟨_, -, h⟩ := h
    cases h
  | splat s => cases h

end Traverse

end Parts

/-! ### Nodes -/

/-- The node that a part is listed as. -/
def Part.node : Part Literal → Node
  | pattern (.literal e v) => ⟨v.nodeKind, e⟩
  | pattern (.name n) => n.node
  | pattern (.empty e) | pattern (.array e _) => ⟨.arrayLiteral, e⟩
  | elements (.one e _) | elements (.more e _ _) => ⟨.arrayValueList, e⟩
  | chain (.link e _ _) => ⟨.arrayTail, e⟩
  | chain (.last e _) => ⟨.arrayHead, e⟩
  | chain (.lastSplat e _) => ⟨.arrayTailSplat, e⟩
  | splat (.named e _) => ⟨.arraySplat, e⟩
  | splat (.anonymous e) => ⟨.anonymousArraySplat, e⟩

theorem Splat.map_node_parts (s : Splat) : s.parts.map Part.node = s.nodes := by
  cases s <;> rfl

mutual

/-- The parts of a pattern are listed as its nodes. -/
theorem Pattern.map_node_parts (p : Pattern Literal) : p.parts.map Part.node = p.nodes := by
  cases p with
  | literal e v => rfl
  | name n => rfl
  | empty e => rfl
  | array e es => rw [Pattern.parts, List.map_cons, es.map_node_parts, Pattern.nodes, Part.node]

theorem Elements.map_node_parts (es : Elements Literal) : es.parts.map Part.node = es.nodes := by
  cases es with
  | one e i => rw [Elements.parts, List.map_cons, i.map_node_parts, Elements.nodes, Part.node]
  | more e i c =>
    rw [Elements.parts, List.map_cons, List.map_append, i.map_node_parts, c.map_node_parts,
      Elements.nodes, Part.node]

theorem Item.map_node_parts (i : Item Literal) : i.parts.map Part.node = i.nodes := by
  cases i with
  | pattern p => exact p.map_node_parts
  | splat s => exact s.map_node_parts

theorem Chain.map_node_parts (c : Chain Literal) : c.parts.map Part.node = c.nodes := by
  cases c with
  | link e i c =>
    rw [Chain.parts, List.map_cons, List.map_append, i.map_node_parts, c.map_node_parts,
      Chain.nodes, Part.node]
  | last e p => rw [Chain.parts, List.map_cons, p.map_node_parts, Chain.nodes, Part.node]
  | lastSplat e s => rw [Chain.parts, List.map_cons, s.map_node_parts, Chain.nodes, Part.node]

end

theorem Part.extent_node (a : Part Literal) : a.node.extent = a.extent := by
  cases a with
  | pattern p => cases p <;> rfl
  | elements es => cases es <;> rfl
  | chain c => cases c <;> rfl
  | splat s => cases s <;> rfl

end Destructure
