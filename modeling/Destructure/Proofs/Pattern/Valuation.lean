/-
  Destructure/Proofs/Pattern/Valuation.lean
  =========================================
  **Literals of an outline** — an outline of lexemes has a value if each of its
  lexemes has one, and then a pattern of the first turns into one of the second
  (`Pattern.outline_traverse`). No lexeme of a number stands for `nan`: the letters
  of that name are in none of them. So every literal of a pattern that is read
  equals itself.
-/
import Destructure.Matcher.Basic
import Destructure.Pattern.Reader
import Destructure.Proofs.Outcome
import Destructure.Proofs.Pattern.Reading

namespace Destructure

/-! ### Values in place of lexemes -/

mutual

/-- The outline with the values of its lexemes, if all of them have one. -/
def Outline.value? : Outline Lexeme → Option (Outline Literal)
  | .literal l => l.value.toOption.map .literal
  | .name s => some (.name s)
  | .array es => (entryValues? es).map .array

def Entry.value? : Entry Lexeme → Option (Entry Literal)
  | .pattern o => o.value?.map .pattern
  | .splat s => some (.splat s)

def entryValues? : List (Entry Lexeme) → Option (List (Entry Literal))
  | [] => some []
  | e :: es => e.value?.bind fun e => (entryValues? es).map (e :: ·)

end

theorem toOption_valueAt (e : Extent) (l : Lexeme) :
    (l.valueAt e).toOption = l.value.toOption := by
  unfold Lexeme.valueAt
  cases l.value <;> rfl

mutual

/-- The pattern that is left once the literals are read has the value of the
    outline. -/
theorem Pattern.outline_traverse (p : Pattern Lexeme) :
    (p.traverse Lexeme.valueAt).toOption.map Pattern.outline = p.outline.value? := by
  cases p with
  | literal e l =>
    rw [Pattern.outline, Outline.value?, ← toOption_valueAt e l, Pattern.traverse]
    cases l.valueAt e <;> rfl
  | name n => rfl
  | empty e => rfl
  | array e es =>
    rw [Pattern.outline, Outline.value?, ← es.entries_traverse, Pattern.traverse]
    cases es.traverse Lexeme.valueAt <;> rfl

theorem Elements.entries_traverse (es : Elements Lexeme) :
    (es.traverse Lexeme.valueAt).toOption.map Elements.entries = entryValues? es.entries := by
  cases es with
  | one e i =>
    rw [Elements.entries, entryValues?, ← i.entry_traverse, Elements.traverse]
    cases i.traverse Lexeme.valueAt <;> rfl
  | more e i c =>
    rw [Elements.entries, entryValues?, ← i.entry_traverse, ← c.entries_traverse,
      Elements.traverse]
    cases i.traverse Lexeme.valueAt with
    | error f => rfl
    | ok j => cases c.traverse Lexeme.valueAt <;> rfl

theorem Item.entry_traverse (i : Item Lexeme) :
    (i.traverse Lexeme.valueAt).toOption.map Item.entry = i.entry.value? := by
  cases i with
  | pattern p =>
    rw [Item.entry, Entry.value?, ← p.outline_traverse, Item.traverse]
    cases p.traverse Lexeme.valueAt <;> rfl
  | splat s => rfl

theorem Chain.entries_traverse (c : Chain Lexeme) :
    (c.traverse Lexeme.valueAt).toOption.map Chain.entries = entryValues? c.entries := by
  cases c with
  | link e i c =>
    rw [Chain.entries, entryValues?, ← i.entry_traverse, ← c.entries_traverse, Chain.traverse]
    cases i.traverse Lexeme.valueAt with
    | error f => rfl
    | ok j => cases c.traverse Lexeme.valueAt <;> rfl
  | last e p =>
    rw [Chain.entries, entryValues?, Entry.value?, ← p.outline_traverse, Chain.traverse]
    cases p.traverse Lexeme.valueAt <;> rfl
  | lastSplat e s => rfl

end

/-! ### The literals of an outline -/

section Literals

variable {α : Type}

mutual

/-- What stands at the literals of an outline, from left to right. -/
def Outline.literals : Outline α → List α
  | .literal a => [a]
  | .name _ => []
  | .array es => entryLiterals es

def Entry.literals : Entry α → List α
  | .pattern o => o.literals
  | .splat _ => []

def entryLiterals : List (Entry α) → List α
  | [] => []
  | e :: es => e.literals ++ entryLiterals es

end

end Literals

mutual

/-- Every literal of the value is the value of a lexeme. -/
theorem Outline.mem_literals_value? (t : Outline Lexeme) {o : Outline Literal}
    (h : t.value? = some o) :
    ∀ v ∈ o.literals, ∃ l ∈ t.literals, l.value = .ok v := by
  cases t with
  | literal l =>
    rw [Outline.value?, Option.map_eq_some_iff] at h
    obtain ⟨v, hv, rfl⟩ := h
    intro w hw
    rw [Outline.literals, List.mem_singleton] at hw
    subst hw
    refine ⟨l, by simp [Outline.literals], ?_⟩
    cases hl : l.value with
    | error f =>
      rw [hl] at hv
      cases hv
    | ok u =>
      rw [hl] at hv
      cases hv
      rfl
  | name s =>
    cases h
    intro v hv
    cases hv
  | array es =>
    rw [Outline.value?, Option.map_eq_some_iff] at h
    obtain ⟨es', hes, rfl⟩ := h
    exact mem_entryLiterals_values? es hes

theorem Entry.mem_literals_value? (e : Entry Lexeme) {e' : Entry Literal}
    (h : e.value? = some e') :
    ∀ v ∈ e'.literals, ∃ l ∈ e.literals, l.value = .ok v := by
  cases e with
  | pattern t =>
    rw [Entry.value?, Option.map_eq_some_iff] at h
    obtain ⟨o, ho, rfl⟩ := h
    exact t.mem_literals_value? ho
  | splat s =>
    cases h
    intro v hv
    cases hv

theorem mem_entryLiterals_values? (es : List (Entry Lexeme)) {es' : List (Entry Literal)}
    (h : entryValues? es = some es') :
    ∀ v ∈ entryLiterals es', ∃ l ∈ entryLiterals es, l.value = .ok v := by
  cases es with
  | nil =>
    cases h
    intro v hv
    cases hv
  | cons e es =>
    rw [entryValues?, Option.bind_eq_some_iff] at h
    obtain ⟨e', he, h⟩ := h
    rw [Option.map_eq_some_iff] at h
    obtain ⟨es', hes, rfl⟩ := h
    intro v hv
    rw [entryLiterals, List.mem_append] at hv
    rcases hv with hv | hv
    · obtain ⟨l, hl, hvalue⟩ := e.mem_literals_value? he v hv
      exact ⟨l, List.mem_append_left _ hl, hvalue⟩
    · obtain ⟨l, hl, hvalue⟩ := mem_entryLiterals_values? es hes v hv
      exact ⟨l, List.mem_append_right _ hl, hvalue⟩

end

mutual

theorem Outline.Wellspelled.literal {t : Outline Lexeme} (h : t.Wellspelled) :
    ∀ l ∈ t.literals, l.text ∈ l.kind.terminal.lexemes := by
  cases t with
  | literal l =>
    intro l' hl'
    rw [Outline.literals, List.mem_singleton] at hl'
    subst hl'
    exact h
  | name s =>
    intro l hl
    cases hl
  | array es => exact EachWellspelled.literal h

theorem Entry.Wellspelled.literal {e : Entry Lexeme} (h : e.Wellspelled) :
    ∀ l ∈ e.literals, l.text ∈ l.kind.terminal.lexemes := by
  cases e with
  | pattern t => exact Outline.Wellspelled.literal h
  | splat s =>
    intro l hl
    cases hl

theorem EachWellspelled.literal {es : List (Entry Lexeme)} (h : EachWellspelled es) :
    ∀ l ∈ entryLiterals es, l.text ∈ l.kind.terminal.lexemes := by
  cases es with
  | nil =>
    intro l hl
    cases hl
  | cons e es =>
    intro l hl
    rw [entryLiterals, List.mem_append] at hl
    rcases hl with hl | hl
    · exact Entry.Wellspelled.literal h.1 l hl
    · exact EachWellspelled.literal h.2 l hl

end

/-! ### No literal is `nan` -/

/-- None of the characters is an `n`, small or capital. -/
def Unnamed (cs : List Char) : Prop := ∀ c ∈ cs, c.toLower ≠ 'n'

theorem toLower_eq_n {c : Char} (h : c.toLower = 'n') : c = 'n' ∨ c = 'N' := by
  -- a capital is shifted by the distance between the cases, which is injective
  by_cases hupper : c.val ≥ 'A'.val ∧ c.val ≤ 'Z'.val
  · have hlower : c.toLower = _ := dif_pos hupper
    rw [hlower] at h
    have hval : c.val + ('a'.val - 'A'.val) = 'N'.val + ('a'.val - 'A'.val) :=
      congrArg Char.val h
    exact Or.inr (Char.ext ((UInt32.add_left_inj _).mp hval))
  · have hlower : c.toLower = c := dif_neg hupper
    rw [hlower] at h
    exact Or.inl h

theorem Unnamed.of_numeric {l : Language Char} (hl : Numeric l) : ∀ w ∈ l, Unnamed w := by
  intro w hw c hc heq
  rcases toLower_eq_n heq with rfl | rfl
  · exact absurd (hl w hw 'n' hc) (by decide)
  · exact absurd (hl w hw 'N' hc) (by decide)

theorem mem_of_mem_trimBlanks {p : Char → Bool} {cs : List Char} {c : Char}
    (h : c ∈ trimBlanks p cs) : c ∈ cs := by
  rw [trimBlanks, List.mem_reverse] at h
  have h := (List.dropWhile_sublist p).mem h
  rw [List.mem_reverse] at h
  exact (List.dropWhile_sublist p).mem h

theorem mem_of_mem_ungroup? {b : Bool} {cs ds : List Char} {c : Char}
    (h : ungroup? b cs = some ds) (hc : c ∈ ds) : c ∈ cs := by
  fun_induction ungroup? b cs generalizing ds with
  | case1 =>
    cases h
    exact hc
  | case2 b d cs hdigit ih =>
    obtain ⟨es, hes, rfl⟩ := Option.map_eq_some_iff.mp h
    rcases List.mem_cons.mp hc with rfl | hc
    · simp
    · simp [ih hes hc]
  | case3 => cases h
  | case4 => cases h
  | case5 b d cs hne hd ih =>
    obtain ⟨es, hes, rfl⟩ := Option.map_eq_some_iff.mp h
    rcases List.mem_cons.mp hc with rfl | hc
    · simp
    · simp [ih hes hc]

theorem mem_of_mem_splitSign {cs : List Char} {c : Char} (h : c ∈ (splitSign cs).2) : c ∈ cs := by
  unfold splitSign at h
  split at h
  · exact List.mem_cons_of_mem _ h
  · exact List.mem_cons_of_mem _ h
  · exact h

theorem nearest_ne_nan (f : BinaryFormat) (negative : Bool) (n d : Nat) :
    f.nearest negative n d ≠ .nan := by
  unfold BinaryFormat.nearest
  split
  · simp
  · dsimp only
    split <;> split <;> simp

theorem ofDecimal_ne_nan (f : BinaryFormat) (negative : Bool) (d : Decimal) :
    f.ofDecimal negative d ≠ .nan := by
  unfold BinaryFormat.ofDecimal
  split
  · simp
  · split
    · simp
    · exact nearest_ne_nan _ _ _ _

theorem readFloat?_ne_nan {cs : List Char} (h : Unnamed cs) : readFloat? cs ≠ some .nan := by
  intro hread
  unfold readFloat? at hread
  split at hread
  · cases hread
  · next ds hungroup =>
    dsimp only at hread
    split at hread
    · cases hread
    · cases hread
    · next hnan =>
      -- what spells `nan` begins with an `n`, and that stood in the text
      have hlower : (splitSign ds).2.map Char.toLower = ['n', 'a', 'n'] := by
        rw [← String.toList_ofList (l := (splitSign ds).2.map Char.toLower), hnan]
        rfl
      obtain ⟨c, rest, hsplit, hc, -⟩ := List.map_eq_cons_iff.mp hlower
      have hmem : c ∈ (splitSign ds).2 := by simp [hsplit]
      have hmem := mem_of_mem_ungroup? hungroup (mem_of_mem_splitSign hmem)
      exact h c (mem_of_mem_trimBlanks hmem) hc
    · obtain ⟨d, -, hd⟩ := Option.map_eq_some_iff.mp hread
      exact ofDecimal_ne_nan _ _ d hd

theorem readNumber_ne_nan {cs : List Char} (h : Unnamed cs) :
    readNumber cs ≠ .ok (.float .nan) := by
  intro hread
  unfold readNumber at hread
  split at hread
  · split at hread
    · next x hx =>
      simp only [Except.ok.injEq, Literal.float.injEq] at hread
      exact readFloat?_ne_nan h (by rw [hx, hread])
    · cases hread
  · split at hread <;> cases hread

/-- The value of a lexeme is not `nan`. -/
theorem Lexeme.value_ne_nan {l : Lexeme} (h : l.text ∈ l.kind.terminal.lexemes) :
    l.value ≠ .ok (.float .nan) := by
  obtain ⟨kind, cs⟩ := l
  cases kind with
  | integer => exact readNumber_ne_nan (Unnamed.of_numeric .integer cs h)
  | float => exact readNumber_ne_nan (Unnamed.of_numeric .float cs h)
  | string =>
    intro hread
    simp only [Lexeme.value, readString] at hread
    split at hread
    · cases hread
    · split at hread <;> cases hread

theorem Literal.equals_self {v : Literal} (h : v ≠ .float .nan) : v.equals v = true := by
  cases v with
  | integer n => simp [Literal.equals, Literal.number?, Number.quantity, Quantity.equal]
  | text s => simp [Literal.equals]
  | float x =>
    cases x with
    | nan => exact absurd rfl h
    | infinite b =>
      simp [Literal.equals, Literal.number?, Number.quantity, Binary.quantity, Quantity.equal]
    | finite b s e =>
      simp [Literal.equals, Literal.number?, Number.quantity, Binary.quantity, Quantity.equal]

/-- Every literal that an outline of lexemes stands for equals itself. -/
theorem Outline.Wellspelled.equals_self {t : Outline Lexeme} (h : t.Wellspelled)
    {o : Outline Literal} (ho : t.value? = some o) : ∀ v ∈ o.literals, v.equals v = true := by
  intro v hv
  obtain ⟨l, hl, hvalue⟩ := t.mem_literals_value? ho v hv
  refine Literal.equals_self ?_
  rintro rfl
  exact Lexeme.value_ne_nan (h.literal l hl) hvalue

end Destructure
