/-
  Destructure/Proofs/Pattern/Substitution.lean
  ============================================
  **Values in place of names** — a pattern whose names have been given values is a
  value itself: a literal stands for its own, an array pattern for the list of what
  its items stand for, and the list given to a splat is spliced in where the splat
  stands. `*_` takes what nobody has named, so nothing is put in its place.

  The other way round, `Outline.Rebuilds` says that such a value is a given one
  again, apart from the numbers and texts that stand opposite literals.
-/
import Destructure.Matcher.Basic
import Destructure.Proofs.Pattern.Outline
import Destructure.Proofs.Pattern.Valuation
import Destructure.Proofs.Pattern.Walk
import Destructure.Proofs.Value.Sequence

namespace Destructure

/-! ### Substitution -/

def Value.items? : Value → Option (List Value)
  | sequence .list items => some items
  | _ => Option.none

mutual

/-- The value of a pattern whose names stand for what is assigned to them; there is
    none if a name has no value, or a splat one that is no list. -/
def Outline.substitute? (a : Bindings) : Outline Literal → Option Value
  | .literal l => some l.toValue
  | .name s => a.lookup s
  | .array es => (substituteEach? a es).map .list

def substituteEach? (a : Bindings) : List (Entry Literal) → Option (List Value)
  | [] => some []
  | .pattern o :: es => do return (← o.substitute? a) :: (← substituteEach? a es)
  | .splat none :: es => substituteEach? a es
  | .splat (some s) :: es => do
    return (← (← a.lookup s).items?) ++ (← substituteEach? a es)

end

mutual

/-- Laid against the value, every array pattern lies opposite a list. -/
def Outline.FacedByLists : Outline Literal → Value → Prop
  | .array es, .sequence .list xs => EachFacedByLists es xs
  | .array _, _ => False
  | _, _ => True

def EachFacedByLists : List (Entry Literal) → List Value → Prop
  | .pattern o :: es, x :: xs => o.FacedByLists x ∧ EachFacedByLists es xs
  | _, _ => True

end

mutual

/-- The first value, built from the pattern, is the second one again: opposite a
    literal stands an equal number, a duration that equals it or the same text, and
    everything else is the same. -/
inductive Outline.Rebuilds : Outline Literal → Value → Value → Prop
  | number {l : Literal} {k n : Number} :
      l.number? = some k → n.equals k = .ok true →
      Outline.Rebuilds (.literal l) (.number k) (.number n)
  | duration (n : Int) (unit : TimeUnit) :
      Outline.Rebuilds (.literal (.integer n)) (.integer n) (.duration unit (some n))
  | text {s : String} {x : Value} :
      x.text? = some (Text.ofString s) → Outline.Rebuilds (.literal (.text s)) (.string s) x
  | name (s : String) (x : Value) : Outline.Rebuilds (.name s) x x
  | array {es : List (Entry Literal)} {ws xs : List Value} :
      EachRebuilds es ws xs → Outline.Rebuilds (.array es) (.list ws) (.list xs)

inductive EachRebuilds : List (Entry Literal) → List Value → List Value → Prop
  | nil : EachRebuilds [] [] []
  | pattern {o : Outline Literal} {es : List (Entry Literal)} {w x : Value}
      {ws xs : List Value} :
      Outline.Rebuilds o w x → EachRebuilds es ws xs →
      EachRebuilds (.pattern o :: es) (w :: ws) (x :: xs)
  | splat (s : Option String) (xs : List Value) : EachRebuilds [.splat s] xs xs

end

section Splats

variable {α : Type}

mutual

/-- The splats of a pattern, in source order. -/
def Pattern.splats : Pattern α → List Splat
  | .literal .. | .name _ | .empty _ => []
  | .array _ es => es.splats

def Elements.splats : Elements α → List Splat
  | .one _ i => i.splats
  | .more _ i c => i.splats ++ c.splats

def Item.splats : Item α → List Splat
  | .pattern p => p.splats
  | .splat s => [s]

def Chain.splats : Chain α → List Splat
  | .link _ i c => i.splats ++ c.splats
  | .last _ p => p.splats
  | .lastSplat _ s => [s]

end

theorem Splat.mem_identifiers {s : Splat} {n : String} (h : s.name? = some n) :
    ∃ k ∈ s.identifiers, k.text = n := by
  cases s with
  | anonymous e => cases h
  | named e k =>
    cases h
    exact ⟨k, List.mem_singleton.mpr rfl, rfl⟩

mutual

/-- What a splat binds is a name of its pattern. -/
theorem Pattern.identifiers_of_splats (p : Pattern α) :
    ∀ s ∈ p.splats, ∀ k ∈ s.identifiers, k ∈ p.identifiers := by
  cases p with
  | literal e a => simp [Pattern.splats]
  | name n => simp [Pattern.splats]
  | empty e => simp [Pattern.splats]
  | array e es => exact es.identifiers_of_splats

theorem Elements.identifiers_of_splats (es : Elements α) :
    ∀ s ∈ es.splats, ∀ k ∈ s.identifiers, k ∈ es.identifiers := by
  cases es with
  | one e i => exact i.identifiers_of_splats
  | more e i c =>
    intro s hs k hk
    rcases List.mem_append.mp hs with hs | hs
    · exact List.mem_append_left _ (i.identifiers_of_splats s hs k hk)
    · exact List.mem_append_right _ (c.identifiers_of_splats s hs k hk)

theorem Item.identifiers_of_splats (i : Item α) :
    ∀ s ∈ i.splats, ∀ k ∈ s.identifiers, k ∈ i.identifiers := by
  cases i with
  | pattern p => exact p.identifiers_of_splats
  | splat t =>
    intro s hs k hk
    rwa [List.mem_singleton.mp hs] at hk

theorem Chain.identifiers_of_splats (c : Chain α) :
    ∀ s ∈ c.splats, ∀ k ∈ s.identifiers, k ∈ c.identifiers := by
  cases c with
  | link e i c =>
    intro s hs k hk
    rcases List.mem_append.mp hs with hs | hs
    · exact List.mem_append_left _ (i.identifiers_of_splats s hs k hk)
    · exact List.mem_append_right _ (c.identifiers_of_splats s hs k hk)
  | last e p => exact p.identifiers_of_splats
  | lastSplat e t =>
    intro s hs k hk
    rwa [List.mem_singleton.mp hs] at hk

end

end Splats

/-! ### Where there is a value -/

section Assigned

variable {a : Bindings}

/-- Every name has a value. -/
def Assigned (a : Bindings) (ns : List Name) : Prop := ∀ n ∈ ns, ∃ x, a.lookup n.text = some x

/-- Every splat with a name has a list. -/
def Spliceable (a : Bindings) (ss : List Splat) : Prop :=
  ∀ s ∈ ss, ∀ n, s.name? = some n → ∃ xs, a.lookup n = some (.list xs)

theorem Assigned.of_append {ns ms : List Name} (h : Assigned a (ns ++ ms)) :
    Assigned a ns ∧ Assigned a ms :=
  List.forall_mem_append.mp h

theorem Spliceable.of_append {ss ts : List Splat} (h : Spliceable a (ss ++ ts)) :
    Spliceable a ss ∧ Spliceable a ts :=
  List.forall_mem_append.mp h

theorem Splat.exists_substitute {s : Splat} (hsplat : Spliceable a [s])
    {es : List (Entry Literal)} {ws : List Value} (hws : substituteEach? a es = some ws) :
    ∃ vs, substituteEach? a (.splat s.name? :: es) = some (vs ++ ws) := by
  cases s with
  | anonymous e => exact ⟨[], hws⟩
  | named e n =>
    obtain ⟨xs, hxs⟩ := hsplat _ (List.mem_singleton.mpr rfl) n.text rfl
    refine ⟨xs, ?_⟩
    simp only [Splat.name?, substituteEach?, hxs, hws]
    rfl

mutual

/-- There is a value if every name has one and those of splats are lists. -/
theorem Pattern.exists_substitute (p : Pattern Literal) (hnames : Assigned a p.identifiers)
    (hsplats : Spliceable a p.splats) : ∃ w, p.outline.substitute? a = some w := by
  cases p with
  | literal e l => exact ⟨l.toValue, rfl⟩
  | name n => exact hnames n (List.mem_singleton.mpr rfl)
  | empty e => exact ⟨.list [], rfl⟩
  | array e es =>
    obtain ⟨ws, hws⟩ := es.exists_substitute hnames hsplats
    refine ⟨.list ws, ?_⟩
    rw [Pattern.outline, Outline.substitute?, hws]
    rfl

theorem Elements.exists_substitute (es : Elements Literal) (hnames : Assigned a es.identifiers)
    (hsplats : Spliceable a es.splats) : ∃ ws, substituteEach? a es.entries = some ws := by
  cases es with
  | one e i =>
    have hnil : substituteEach? a [] = some [] := rfl
    obtain ⟨vs, hvs⟩ := i.exists_substitute hnames hsplats hnil
    exact ⟨vs ++ [], hvs⟩
  | more e i c =>
    obtain ⟨ws, hws⟩ := c.exists_substitute hnames.of_append.2 hsplats.of_append.2
    obtain ⟨vs, hvs⟩ := i.exists_substitute hnames.of_append.1 hsplats.of_append.1 hws
    exact ⟨vs ++ ws, hvs⟩

theorem Item.exists_substitute (i : Item Literal) (hnames : Assigned a i.identifiers)
    (hsplats : Spliceable a i.splats) {es : List (Entry Literal)} {ws : List Value}
    (hws : substituteEach? a es = some ws) :
    ∃ vs, substituteEach? a (i.entry :: es) = some (vs ++ ws) := by
  cases i with
  | pattern p =>
    obtain ⟨w, hw⟩ := p.exists_substitute hnames hsplats
    refine ⟨[w], ?_⟩
    simp only [Item.entry, substituteEach?, hw, hws]
    rfl
  | splat s => exact Splat.exists_substitute hsplats hws

theorem Chain.exists_substitute (c : Chain Literal) (hnames : Assigned a c.identifiers)
    (hsplats : Spliceable a c.splats) : ∃ ws, substituteEach? a c.entries = some ws := by
  cases c with
  | link e i c =>
    obtain ⟨ws, hws⟩ := c.exists_substitute hnames.of_append.2 hsplats.of_append.2
    obtain ⟨vs, hvs⟩ := i.exists_substitute hnames.of_append.1 hsplats.of_append.1 hws
    exact ⟨vs ++ ws, hvs⟩
  | last e p =>
    obtain ⟨w, hw⟩ := p.exists_substitute hnames hsplats
    refine ⟨[w], ?_⟩
    simp only [Chain.entries, substituteEach?, hw]
    rfl
  | lastSplat e s =>
    have hnil : substituteEach? a [] = some [] := rfl
    obtain ⟨vs, hvs⟩ := Splat.exists_substitute hsplats hnil
    exact ⟨vs ++ [], hvs⟩

end

end Assigned

/-! ### Items one by one -/

section Each

variable {a : Bindings} {o : Outline Literal} {es : List (Entry Literal)} {ws : List Value}

theorem substituteEach?_pattern (h : substituteEach? a (.pattern o :: es) = some ws) :
    ∃ x xs, o.substitute? a = some x ∧ substituteEach? a es = some xs ∧ ws = x :: xs := by
  simp only [substituteEach?, Option.bind_eq_bind, Option.bind_eq_some_iff, Option.pure_def,
    Option.some.injEq] at h
  obtain ⟨x, hx, xs, hxs, rfl⟩ := h
  exact ⟨x, xs, hx, hxs, rfl⟩

theorem Value.items?_eq_some {v : Value} {xs : List Value} (h : v.items? = some xs) :
    v = .list xs := by
  unfold Value.items? at h
  split at h
  · cases h
    rfl
  · cases h

theorem substituteEach?_splat {s : String}
    (h : substituteEach? a (.splat (some s) :: es) = some ws) :
    ∃ xs ys, a.lookup s = some (.list xs) ∧ substituteEach? a es = some ys ∧ ws = xs ++ ys := by
  simp only [substituteEach?, Option.bind_eq_bind, Option.bind_eq_some_iff, Option.pure_def,
    Option.some.injEq] at h
  obtain ⟨v, hv, xs, hxs, ys, hys, rfl⟩ := h
  rw [Value.items?_eq_some hxs] at hv
  exact ⟨xs, ys, hv, hys, rfl⟩

end Each

theorem facedByLists_array {es : List (Entry Literal)} {v : Value}
    (h : (Outline.array es).FacedByLists v) : ∃ xs, v = .list xs ∧ EachFacedByLists es xs := by
  cases v with
  | sequence kind xs =>
    cases kind with
    | list => exact ⟨xs, rfl, h⟩
    | _ => exact h.elim
  | _ => exact h.elim

end Destructure
