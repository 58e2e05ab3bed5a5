/-
  Destructure/Proofs/Pattern/Outline.lean
  =======================================
  **Outlines** — a pattern without its places, the entries of an array in one flat
  list. A pattern tree hangs the items of an array in a chain whose links differ by
  what follows; an outline does not, which makes it the second side of statements
  about trees. `Outline.build` chains the entries again, at no place in particular.
  The two forms carry the same: `Pattern.unplaced_eq_build_iff`.
-/
import Destructure.Pattern.Literal
import Destructure.Pattern.Basic

namespace Destructure

mutual

/-- A pattern without its places. -/
inductive Outline (α : Type) where
  | literal (value : α)
  | name (text : String)
  | array (entries : List (Entry α))

/-- What stands between two commas; a splat without a name is `*_`. -/
inductive Entry (α : Type) where
  | pattern (o : Outline α)
  | splat (name : Option String)

end

section Outlines

variable {α : Type}

/-! ### The outline of a pattern -/

/-- The name that a splat binds. -/
def Splat.name? : Splat → Option String
  | named _ name => some name.text
  | anonymous _ => none

mutual

/-- The outline of a pattern. -/
def Pattern.outline : Pattern α → Outline α
  | .literal _ a => .literal a
  | .name n => .name n.text
  | .empty _ => .array []
  | .array _ es => .array es.entries

def Elements.entries : Elements α → List (Entry α)
  | .one _ i => [i.entry]
  | .more _ i c => i.entry :: c.entries

def Item.entry : Item α → Entry α
  | .pattern p => .pattern p.outline
  | .splat s => .splat s.name?

def Chain.entries : Chain α → List (Entry α)
  | .link _ i c => i.entry :: c.entries
  | .last _ p => [.pattern p.outline]
  | .lastSplat _ s => [.splat s.name?]

end

theorem Chain.entries_ne_nil (c : Chain α) : c.entries ≠ [] := by
  cases c <;> simp [Chain.entries]

/-! ### Trees without places -/

/-- The extent of what stands nowhere. -/
def nowhere : Extent := ⟨0, 0⟩

/-- A splat taken out of its place. -/
def Splat.unplaced : Splat → Splat
  | named _ name => .named nowhere ⟨nowhere, name.text⟩
  | anonymous _ => .anonymous nowhere

mutual

/-- A pattern with every node taken out of its place. Two patterns are equal up to
    their places if they agree once taken out of them. -/
def Pattern.unplaced : Pattern α → Pattern α
  | .literal _ a => .literal nowhere a
  | .name n => .name ⟨nowhere, n.text⟩
  | .empty _ => .empty nowhere
  | .array _ es => .array nowhere es.unplaced

def Elements.unplaced : Elements α → Elements α
  | .one _ i => .one nowhere i.unplaced
  | .more _ i c => .more nowhere i.unplaced c.unplaced

def Item.unplaced : Item α → Item α
  | .pattern p => .pattern p.unplaced
  | .splat s => .splat s.unplaced

def Chain.unplaced : Chain α → Chain α
  | .link _ i c => .link nowhere i.unplaced c.unplaced
  | .last _ p => .last nowhere p.unplaced
  | .lastSplat _ s => .lastSplat nowhere s.unplaced

end

/-! ### The pattern of an outline -/

/-- The splat that binds a name, or none. -/
def Splat.ofName? : Option String → Splat
  | some s => .named nowhere ⟨nowhere, s⟩
  | none => .anonymous nowhere

/-- The chain of an item and those behind it: every item that others follow is a
    link, and the last one closes the array as what it is. -/
def Chain.ofItems : Item α → List (Item α) → Chain α
  | i, j :: js => .link nowhere i (ofItems j js)
  | .pattern p, [] => .last nowhere p
  | .splat s, [] => .lastSplat nowhere s

/-- The array pattern with the given items: without any it is the empty one, and a
    lone item has no chain behind it. -/
def Pattern.ofItems : List (Item α) → Pattern α
  | [] => .empty nowhere
  | [i] => .array nowhere (.one nowhere i)
  | i :: j :: js => .array nowhere (.more nowhere i (Chain.ofItems j js))

mutual

/-- The pattern that an outline is of. -/
def Outline.build : Outline α → Pattern α
  | .literal a => .literal nowhere a
  | .name s => .name ⟨nowhere, s⟩
  | .array es => .ofItems (buildEach es)

def Entry.build : Entry α → Item α
  | .pattern o => .pattern o.build
  | .splat s => .splat (.ofName? s)

def buildEach : List (Entry α) → List (Item α)
  | [] => []
  | e :: es => e.build :: buildEach es

end

theorem Splat.ofName?_name? (s : Splat) : Splat.ofName? s.name? = s.unplaced := by
  cases s <;> rfl

theorem Splat.name?_ofName? (s : Option String) : (Splat.ofName? s).name? = s := by
  cases s <;> rfl

mutual

theorem Pattern.build_outline (p : Pattern α) : p.outline.build = p.unplaced := by
  cases p with
  | literal e a => rfl
  | name n => rfl
  | empty e => rfl
  | array e es =>
    cases es with
    | one e' i =>
      have hi := i.build_entry
      simp only [Pattern.outline, Elements.entries, Outline.build, buildEach, Pattern.ofItems,
        Pattern.unplaced, Elements.unplaced, hi]
    | more e' i c =>
      obtain ⟨j, js, hbuild, hchain⟩ := c.ofItems_entries
      have hi := i.build_entry
      simp only [Pattern.outline, Elements.entries, Outline.build, buildEach, hbuild,
        Pattern.ofItems, Pattern.unplaced, Elements.unplaced, hi, hchain]

theorem Item.build_entry (i : Item α) : i.entry.build = i.unplaced := by
  cases i with
  | pattern p => simp only [Item.entry, Entry.build, Item.unplaced, p.build_outline]
  | splat s => simp only [Item.entry, Entry.build, Item.unplaced, s.ofName?_name?]

theorem Chain.ofItems_entries (c : Chain α) :
    ∃ i is, buildEach c.entries = i :: is ∧ Chain.ofItems i is = c.unplaced := by
  cases c with
  | link e i c =>
    obtain ⟨j, js, hbuild, hchain⟩ := c.ofItems_entries
    refine ⟨i.unplaced, j :: js, ?_, ?_⟩
    · simp only [Chain.entries, buildEach, hbuild, i.build_entry]
    · simp only [Chain.ofItems, Chain.unplaced, hchain]
  | last e p =>
    refine ⟨.pattern p.unplaced, [], ?_, rfl⟩
    simp only [Chain.entries, buildEach, Entry.build, p.build_outline]
  | lastSplat e s =>
    refine ⟨.splat s.unplaced, [], ?_, rfl⟩
    simp only [Chain.entries, buildEach, Entry.build, s.ofName?_name?]

end

theorem Chain.entries_ofItems (i : Item α) (is : List (Item α)) :
    (ofItems i is).entries = (i :: is).map Item.entry := by
  induction is generalizing i with
  | nil => cases i <;> rfl
  | cons j js ih => simp only [ofItems, Chain.entries, ih, List.map_cons]

theorem Pattern.outline_ofItems (is : List (Item α)) :
    (ofItems is).outline = .array (is.map Item.entry) := by
  cases is with
  | nil => rfl
  | cons i is =>
    cases is with
    | nil => rfl
    | cons j js =>
      simp only [ofItems, Pattern.outline, Elements.entries, Chain.entries_ofItems, List.map_cons]

mutual

theorem Outline.outline_build (o : Outline α) : o.build.outline = o := by
  cases o with
  | literal a => rfl
  | name s => rfl
  | array es => rw [Outline.build, Pattern.outline_ofItems, map_entry_buildEach es]

theorem Entry.entry_build (e : Entry α) : e.build.entry = e := by
  cases e with
  | pattern o => rw [Entry.build, Item.entry, o.outline_build]
  | splat s => rw [Entry.build, Item.entry, Splat.name?_ofName?]

theorem map_entry_buildEach (es : List (Entry α)) : (buildEach es).map Item.entry = es := by
  cases es with
  | nil => rfl
  | cons e es => rw [buildEach, List.map_cons, e.entry_build, map_entry_buildEach es]

end

/-- A pattern is that of an outline, up to places, exactly if the outline is its own. -/
theorem Pattern.unplaced_eq_build_iff (p : Pattern α) (o : Outline α) :
    p.unplaced = o.build ↔ p.outline = o := by
  constructor
  · intro h
    have hbuild : p.outline.build = o.build := by rw [p.build_outline, h]
    calc
      p.outline = p.outline.build.outline := p.outline.outline_build.symm
      _ = o.build.outline := by rw [hbuild]
      _ = o := o.outline_build
  · intro h
    rw [← h, p.build_outline]

end Outlines

end Destructure
