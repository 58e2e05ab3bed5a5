/-
  Destructure/Proofs/Pattern/Shift.lean
  =====================================
  **Patterns further on** — a pattern with all its places moved on by the same distance.
  The grammar does not care where a text begins: moved tokens are those of the moved
  pattern, the values of literals stay, and tokens that lie from some offset on lie from
  any other as well once they are moved.
-/
import Destructure.Proofs.Pattern.Cutting
import Destructure.Proofs.Pattern.Derivation
import Destructure.Proofs.Outcome

namespace Destructure

section Shift

variable {α : Type} (k : Nat)

def Extent.shift (e : Extent) : Extent := ⟨e.start + k, e.stop + k⟩

def Name.shift (n : Name) : Name := ⟨n.extent.shift k, n.text⟩

def Splat.shift : Splat → Splat
  | named e n => named (e.shift k) (n.shift k)
  | anonymous e => anonymous (e.shift k)

mutual

/-- The pattern with all its places moved on by `k`. -/
def Pattern.shift : Pattern α → Pattern α
  | .literal e a => .literal (e.shift k) a
  | .name n => .name (n.shift k)
  | .empty e => .empty (e.shift k)
  | .array e es => .array (e.shift k) es.shift

def Elements.shift : Elements α → Elements α
  | .one e i => .one (e.shift k) i.shift
  | .more e i c => .more (e.shift k) i.shift c.shift

def Item.shift : Item α → Item α
  | .pattern p => .pattern p.shift
  | .splat s => .splat (s.shift k)

def Chain.shift : Chain α → Chain α
  | .link e i c => .link (e.shift k) i.shift c.shift
  | .last e p => .last (e.shift k) p.shift
  | .lastSplat e s => .lastSplat (e.shift k) (s.shift k)

end

def Token.shift (t : Token) : Token := ⟨t.terminal, t.start + k, t.text⟩

end Shift

/-! ### Tokens -/

theorem Token.extent_shift (k : Nat) (t : Token) : (t.shift k).extent = t.extent.shift k := by
  simp only [extent, shift, Extent.shift, Extent.mk.injEq, true_and]
  omega

theorem Token.stop_shift (k : Nat) (t : Token) :
    (t.shift k).extent.stop = t.extent.stop + k := by
  rw [t.extent_shift k, Extent.shift]

theorem map_word_shift (k : Nat) (ts : List Token) :
    (ts.map (Token.shift k)).map Token.word = ts.map Token.word := by
  rw [List.map_map]
  rfl

theorem Token.name_shift (k : Nat) (t : Token) : (t.shift k).name = t.name.shift k := by
  rw [name, t.extent_shift k]
  rfl

theorem Splat.shift_ofToken (k star : Nat) (t : Token) :
    (Splat.ofToken star t).shift k = .ofToken (star + k) (t.shift k) := by
  unfold ofToken
  by_cases h : t.text = anonymousName
  · have h' : (t.shift k).text = anonymousName := h
    rw [if_pos h, if_pos h', shift, t.stop_shift k, Extent.shift]
  · have h' : ¬ (t.shift k).text = anonymousName := h
    rw [if_neg h, if_neg h', shift, t.stop_shift k, Extent.shift, t.name_shift k]

/-- Tokens that lie further on are moved back. -/
theorem Laid.unshift {k offset : Nat} {ts : List Token} {cs : List Char}
    (h : Laid (offset + k) ts cs) :
    ∃ us, us.map (Token.shift k) = ts ∧ Laid offset us cs := by
  generalize hoffset : offset + k = further at h
  induction h generalizing offset with
  | nil => exact ⟨[], rfl, .nil offset⟩
  | @cons further t ts blanks cs hblanks hstart _ ih =>
    let u : Token := ⟨t.terminal, offset + blanks.length, t.text⟩
    have hu : u.shift k = t := by
      have hplace : offset + blanks.length + k = t.start := by omega
      rw [Token.shift, hplace]
    have hstop : u.extent.stop + k = t.extent.stop := by rw [← hu, u.stop_shift k]
    obtain ⟨us, rfl, hus⟩ := ih hstop
    exact ⟨u :: us, by rw [List.map_cons, hu], .cons hblanks rfl hus⟩

/-! ### Derivations -/

section Extents

variable {α : Type} (k : Nat)

theorem Pattern.extent_shift (p : Pattern α) : (p.shift k).extent = p.extent.shift k := by
  cases p <;> rfl

theorem Splat.extent_shift (s : Splat) : (s.shift k).extent = s.extent.shift k := by
  cases s <;> rfl

theorem Item.extent_shift (i : Item α) : (i.shift k).extent = i.extent.shift k := by
  cases i with
  | pattern p => exact p.extent_shift k
  | splat s => exact s.extent_shift k

theorem Chain.extent_shift (c : Chain α) : (c.shift k).extent = c.extent.shift k := by
  cases c <;> rfl

end Extents

mutual

/-- The moved tokens of a pattern are those of the moved pattern. -/
theorem Pattern.derives_shift (k : Nat) (p : Pattern Lexeme) {ts : List Token}
    (h : p.Derives ts) : (p.shift k).Derives (ts.map (Token.shift k)) := by
  cases p with
  | literal e l =>
    cases h with
    | @literal t kind ht =>
      rw [Pattern.shift, ← t.extent_shift k]
      exact @Pattern.Derives.literal (t.shift k) kind ht
  | name n =>
    cases h with
    | @name t ht =>
      rw [Pattern.shift, ← t.name_shift k]
      exact @Pattern.Derives.name (t.shift k) ht
  | empty e =>
    cases h with
    | @empty o c ho hc =>
      rw [Pattern.shift, Extent.shift, ← c.stop_shift k]
      exact @Pattern.Derives.empty (o.shift k) (c.shift k) ho hc
  | array e es =>
    cases h with
    | @array o c _ ts ho hes hc =>
      rw [Pattern.shift, Extent.shift, ← c.stop_shift k, List.map_append, List.map_cons,
        List.map_singleton]
      exact @Pattern.Derives.array (o.shift k) (c.shift k) _ _ ho (es.derives_shift k hes) hc

theorem Elements.derives_shift (k : Nat) (es : Elements Lexeme) {ts : List Token}
    (h : es.Derives ts) : (es.shift k).Derives (ts.map (Token.shift k)) := by
  cases es with
  | one e i =>
    cases h with
    | one hi =>
      have hone := Elements.Derives.one (i.derives_shift k hi)
      rwa [i.extent_shift k] at hone
  | more e i c =>
    cases h with
    | more hi hc =>
      have hmore := Elements.Derives.more (i.derives_shift k hi) (c.derives_shift k hc)
      rw [i.extent_shift k, c.extent_shift k] at hmore
      rw [List.map_append]
      exact hmore

theorem Item.derives_shift (k : Nat) (i : Item Lexeme) {ts : List Token} (h : i.Derives ts) :
    (i.shift k).Derives (ts.map (Token.shift k)) := by
  cases i with
  | pattern p =>
    cases h with
    | pattern hp => exact .pattern (p.derives_shift k hp)
  | splat s =>
    cases h with
    | @splat star t hstar ht =>
      rw [Item.shift, Splat.shift_ofToken]
      exact @Item.Derives.splat (star.shift k) (t.shift k) hstar ht

theorem Chain.derives_shift (k : Nat) (c : Chain Lexeme) {ts : List Token} (h : c.Derives ts) :
    (c.shift k).Derives (ts.map (Token.shift k)) := by
  cases c with
  | link e i c =>
    cases h with
    | @link comma _ _ ts us hcomma hi hc =>
      have hcomma' : (comma.shift k).terminal = .comma := hcomma
      have hlink := Chain.Derives.link hcomma' (i.derives_shift k hi) (c.derives_shift k hc)
      rw [c.extent_shift k] at hlink
      rw [List.map_append, List.map_cons]
      exact hlink
  | last e p =>
    cases h with
    | @last comma _ ts hcomma hp =>
      have hcomma' : (comma.shift k).terminal = .comma := hcomma
      have hlast := Chain.Derives.last hcomma' (p.derives_shift k hp)
      rw [p.extent_shift k] at hlast
      exact hlast
  | lastSplat e s =>
    cases h with
    | @lastSplat comma star t hcomma hstar ht =>
      rw [Chain.shift, Splat.shift_ofToken, Extent.shift, ← t.stop_shift k]
      exact @Chain.Derives.lastSplat (comma.shift k) (star.shift k) (t.shift k) hcomma hstar ht

end

/-! ### Values -/

section Traverse

variable {α β ε : Type} {k : Nat} {f : Extent → α → Except ε β}

mutual

/-- What is put in place of the literals of a moved pattern is what is put there before it
    is moved, if it does not depend on the place. -/
theorem Pattern.traverse_shift (hf : ∀ e a b, f (e.shift k) a = .ok b → f e a = .ok b)
    (p : Pattern α) {q : Pattern β} (h : (p.shift k).traverse f = .ok q) :
    ∃ q₀, p.traverse f = .ok q₀ ∧ q₀.shift k = q := by
  cases p with
  | literal e a =>
    simp only [Pattern.shift, Pattern.traverse, bind_eq_ok_iff, pure_eq_ok, Except.ok.injEq] at h
    obtain ⟨b, hb, rfl⟩ := h
    exact ⟨.literal e b, by rw [Pattern.traverse, hf e a b hb]; rfl, rfl⟩
  | name n =>
    cases h
    exact ⟨.name n, rfl, rfl⟩
  | empty e =>
    cases h
    exact ⟨.empty e, rfl, rfl⟩
  | array e es =>
    simp only [Pattern.shift, Pattern.traverse, bind_eq_ok_iff, pure_eq_ok, Except.ok.injEq] at h
    obtain ⟨es', hes, rfl⟩ := h
    obtain ⟨es₀, hes₀, rfl⟩ := es.traverse_shift hf hes
    exact ⟨.array e es₀, by rw [Pattern.traverse, hes₀]; rfl, rfl⟩

theorem Elements.traverse_shift (hf : ∀ e a b, f (e.shift k) a = .ok b → f e a = .ok b)
    (es : Elements α) {es' : Elements β} (h : (es.shift k).traverse f = .ok es') :
    ∃ es₀, es.traverse f = .ok es₀ ∧ es₀.shift k = es' := by
  cases es with
  | one e i =>
    simp only [Elements.shift, Elements.traverse, bind_eq_ok_iff, pure_eq_ok, Except.ok.injEq] at h
    obtain ⟨j, hj, rfl⟩ := h
    obtain ⟨j₀, hj₀, rfl⟩ := i.traverse_shift hf hj
    exact ⟨.one e j₀, by rw [Elements.traverse, hj₀]; rfl, rfl⟩
  | more e i c =>
    simp only [Elements.shift, Elements.traverse, bind_eq_ok_iff, pure_eq_ok, Except.ok.injEq] at h
    obtain ⟨j, hj, d, hd, rfl⟩ := h
    obtain ⟨j₀, hj₀, rfl⟩ := i.traverse_shift hf hj
    obtain ⟨d₀, hd₀, rfl⟩ := c.traverse_shift hf hd
    exact ⟨.more e j₀ d₀, by rw [Elements.traverse, hj₀, ok_bind, hd₀]; rfl, rfl⟩

theorem Item.traverse_shift (hf : ∀ e a b, f (e.shift k) a = .ok b → f e a = .ok b)
    (i : Item α) {j : Item β} (h : (i.shift k).traverse f = .ok j) :
    ∃ j₀, i.traverse f = .ok j₀ ∧ j₀.shift k = j := by
  cases i with
  | pattern p =>
    simp only [Item.shift, Item.traverse, bind_eq_ok_iff, pure_eq_ok, Except.ok.injEq] at h
    obtain ⟨q, hq, rfl⟩ := h
    obtain ⟨q₀, hq₀, rfl⟩ := p.traverse_shift hf hq
    exact ⟨.pattern q₀, by rw [Item.traverse, hq₀]; rfl, rfl⟩
  | splat s =>
    cases h
    exact ⟨.splat s, rfl, rfl⟩

theorem Chain.traverse_shift (hf : ∀ e a b, f (e.shift k) a = .ok b → f e a = .ok b)
    (c : Chain α) {d : Chain β} (h : (c.shift k).traverse f = .ok d) :
    ∃ d₀, c.traverse f = .ok d₀ ∧ d₀.shift k = d := by
  cases c with
  | link e i c =>
    simp only [Chain.shift, Chain.traverse, bind_eq_ok_iff, pure_eq_ok, Except.ok.injEq] at h
    obtain ⟨j, hj, d, hd, rfl⟩ := h
    obtain ⟨j₀, hj₀, rfl⟩ := i.traverse_shift hf hj
    obtain ⟨d₀, hd₀, rfl⟩ := c.traverse_shift hf hd
    exact ⟨.link e j₀ d₀, by rw [Chain.traverse, hj₀, ok_bind, hd₀]; rfl, rfl⟩
  | last e p =>
    simp only [Chain.shift, Chain.traverse, bind_eq_ok_iff, pure_eq_ok, Except.ok.injEq] at h
    obtain ⟨q, hq, rfl⟩ := h
    obtain ⟨q₀, hq₀, rfl⟩ := p.traverse_shift hf hq
    exact ⟨.last e q₀, by rw [Chain.traverse, hq₀]; rfl, rfl⟩
  | lastSplat e s =>
    cases h
    exact ⟨.lastSplat e s, rfl, rfl⟩

end

end Traverse

/-- The value of a literal does not depend on its place. -/
theorem Lexeme.valueAt_shift {k : Nat} {e : Extent} {l : Lexeme} {v : Literal}
    (h : l.valueAt (e.shift k) = .ok v) : l.valueAt e = .ok v := by
  unfold valueAt at h ⊢
  cases hl : l.value with
  | ok w =>
    rw [hl] at h
    exact h
  | error fault =>
    rw [hl] at h
    cases h

end Destructure
