/-
  Destructure/Proofs/Pattern/Size.lean
  ====================================
  **How much a text can hold** — every literal, name, splat and array of a pattern
  takes a word of its text, so there are no more of them than characters
  (`Outline.size_le_length`). What is made of the pattern by giving the empty list to
  every name has no list longer than that, at any depth.
-/
import Destructure.Proofs.Pattern.Substitution

namespace Destructure

section Size

variable {α : Type}

mutual

/-- The number of literals, names, splats and arrays in an outline. -/
def Outline.size : Outline α → Nat
  | .literal _ | .name _ => 1
  | .array es => entrySizes es + 1

def Entry.size : Entry α → Nat
  | .pattern o => o.size
  | .splat _ => 1

def entrySizes : List (Entry α) → Nat
  | [] => 0
  | e :: es => e.size + entrySizes es

end

theorem Outline.size_pos (o : Outline α) : 0 < o.size := by
  cases o <;> simp [Outline.size]

end Size

/-! ### Size and words -/

mutual

theorem Outline.size_value? (t : Outline Lexeme) {o : Outline Literal} (h : t.value? = some o) :
    o.size = t.size := by
  cases t with
  | literal l =>
    obtain ⟨v, -, rfl⟩ := Option.map_eq_some_iff.mp h
    rfl
  | name s =>
    cases h
    rfl
  | array es =>
    obtain ⟨es', hes, rfl⟩ := Option.map_eq_some_iff.mp h
    rw [Outline.size, Outline.size, entrySizes_values? es hes]

theorem Entry.size_value? (e : Entry Lexeme) {e' : Entry Literal} (h : e.value? = some e') :
    e'.size = e.size := by
  cases e with
  | pattern t =>
    obtain ⟨o, ho, rfl⟩ := Option.map_eq_some_iff.mp h
    exact t.size_value? ho
  | splat s =>
    cases h
    rfl

theorem entrySizes_values? (es : List (Entry Lexeme)) {es' : List (Entry Literal)}
    (h : entryValues? es = some es') : entrySizes es' = entrySizes es := by
  cases es with
  | nil =>
    cases h
    rfl
  | cons e es =>
    obtain ⟨e', he, h⟩ := Option.bind_eq_some_iff.mp h
    obtain ⟨es', hes, rfl⟩ := Option.map_eq_some_iff.mp h
    rw [entrySizes, entrySizes, e.size_value? he, entrySizes_values? es hes]

end

mutual

theorem Outline.size_le_words (t : Outline Lexeme) : t.size ≤ t.words.length := by
  cases t with
  | literal l => simp [Outline.size, Outline.words]
  | name s => simp [Outline.size, Outline.words]
  | array es =>
    rw [Outline.size, Outline.words, List.length_cons, List.length_append]
    cases es with
    | nil => simp [entrySizes]
    | cons e es =>
      have he := e.size_le_words
      have hes := entrySizes_le_words es
      rw [entrySizes, separatedWords, List.length_append]
      omega

theorem Entry.size_le_words (e : Entry Lexeme) : e.size ≤ e.words.length := by
  cases e with
  | pattern t => exact t.size_le_words
  | splat s => simp [Entry.size, Entry.words]

theorem entrySizes_le_words (es : List (Entry Lexeme)) :
    entrySizes es ≤ (furtherWords es).length := by
  cases es with
  | nil => simp [entrySizes]
  | cons e es =>
    have he := e.size_le_words
    have hes := entrySizes_le_words es
    rw [entrySizes, furtherWords, List.length_cons, List.length_append]
    omega

end

/-- A text has a character for each of its words. -/
theorem Spaced.length_le {ws : List Word} (hspelled : ∀ w ∈ ws, Spelled w) {cs : List Char}
    (h : Spaced (ws.map (·.2)) cs) : ws.length ≤ cs.length := by
  induction ws generalizing cs with
  | nil => exact Nat.zero_le _
  | cons w ws ih =>
    obtain ⟨c, ds, hword, -, -⟩ := (hspelled w (by simp)).head
    cases h with
    | word hblanks hrest =>
      have hlength := ih (fun v hv => hspelled v (List.mem_cons_of_mem w hv)) hrest
      have hpositive : 0 < w.2.length := by simp [hword]
      simp only [List.length_cons, List.length_append]
      omega

/-- A pattern is no larger than its text is long. -/
theorem Outline.size_le_length {t : Outline Lexeme} (hwell : t.Wellspelled) {cs : List Char}
    (hspaced : Spaced (t.words.map (·.2)) cs) {o : Outline Literal} (ho : t.value? = some o) :
    o.size ≤ cs.length := by
  calc
    o.size = t.size := t.size_value? ho
    _ ≤ t.words.length := t.size_le_words
    _ ≤ cs.length := hspaced.length_le hwell.spelled

/-! ### Empty lists in place of all names -/

section Empty

variable {a : Bindings} (ha : ∀ s x, a.lookup s = some x → x = .list [])

include ha

mutual

theorem Outline.countable_substitute (o : Outline Literal) {w : Value}
    (hw : o.substitute? a = some w) (hsize : o.size ≤ Value.countLimit) :
    w.WellFormed ∧ w.Countable := by
  cases o with
  | literal l =>
    cases hw
    cases l <;> exact ⟨trivial, trivial⟩
  | name s =>
    rw [ha s w hw]
    exact ⟨trivial, Nat.zero_le _, trivial⟩
  | array es =>
    obtain ⟨ws, hws, rfl⟩ := Option.map_eq_some_iff.mp hw
    rw [Outline.size] at hsize
    obtain ⟨hlength, hwell, hcount⟩ := countable_substituteEach es hws (Nat.le_of_succ_le hsize)
    exact ⟨hwell, hlength.trans (Nat.le_of_succ_le hsize), hcount⟩

theorem countable_substituteEach (es : List (Entry Literal)) {ws : List Value}
    (hws : substituteEach? a es = some ws) (hsize : entrySizes es ≤ Value.countLimit) :
    ws.length ≤ entrySizes es ∧ AllWellFormed ws ∧ AllCountable ws := by
  cases es with
  | nil =>
    cases hws
    exact ⟨Nat.le_refl _, trivial, trivial⟩
  | cons e es =>
    cases e with
    | pattern o =>
      obtain ⟨x, xs, hx, hxs, rfl⟩ := substituteEach?_pattern hws
      rw [entrySizes, Entry.size] at hsize
      obtain ⟨hlength, hwell, hcount⟩ := countable_substituteEach es hxs (by omega)
      obtain ⟨hxwell, hxcount⟩ := Outline.countable_substitute o hx (by omega)
      have hpositive := o.size_pos
      refine ⟨?_, ⟨hxwell, hwell⟩, hxcount, hcount⟩
      rw [entrySizes, Entry.size, List.length_cons]
      omega
    | splat s =>
      rw [entrySizes, Entry.size] at hsize
      cases s with
      | none =>
        obtain ⟨hlength, hall⟩ := countable_substituteEach es hws (by omega)
        refine ⟨?_, hall⟩
        rw [entrySizes]
        omega
      | some s =>
        -- the list that is spliced in is the empty one
        obtain ⟨xs, ys, hxs, hys, rfl⟩ := substituteEach?_splat hws
        obtain ⟨hlength, hall⟩ := countable_substituteEach es hys (by omega)
        cases ha s _ hxs
        refine ⟨?_, hall⟩
        rw [entrySizes, List.nil_append]
        omega

end

end Empty

end Destructure
