/-
  Destructure/Proofs/Matcher/Simulation.lean
  ==========================================
  **Matchers mean what patterns mean** — a chain of matchers looks at the whole
  sequence from each of its links and finds out at its end whether the length was
  right; the meaning of an array looks at the length first. The two agree from each
  index on (`Chain.simulates`), which with index zero is the array.
-/
import Destructure.Proofs.Matcher.Capture
import Destructure.Proofs.Matcher.Reference

namespace Destructure

/-! ### Agreement -/

/-- The matcher is defined where there are bindings, and then captures them if its
    names differ. -/
def Agrees (m : Matcher) (v : Value) (r : Option Bindings) : Prop :=
  m.definedAt v = .ok r.isSome ∧
    ∀ bs, r = some bs → m.names.Nodup → m.bindings v = .ok bs

/-- The matcher agrees, or fails over a length that cannot be counted where one is
    asked for. -/
def Simulates (m : Matcher) (v : Value) (r : Option Bindings) (uncountable : Prop) : Prop :=
  (uncountable ∧ m.definedAt v = .error .overflow) ∨ (¬ uncountable ∧ Agrees m v r)

theorem Agrees.of_none {m : Matcher} {v : Value} (h : m.definedAt v = .ok false) :
    Agrees m v none := by
  refine ⟨h, ?_⟩
  intro bs hbs
  cases hbs

theorem Agrees.nothing {v : Value} (hsequence : v.isSequence = true)
    (hlength : v.length ≤ Value.countLimit) (origin : Option Span) :
    Agrees (.nothing v.length origin) v (some []) := by
  refine ⟨?_, ?_⟩
  · rw [Matcher.definedAt, Value.length?_eq_some hsequence hlength]
    simp
  · intro bs hbs _
    cases hbs
    rfl

/-- The last of several items agrees if what it asks of its element does. -/
theorem Agrees.last {m : Matcher} {v x : Value} {r : Option Bindings} {i : Nat}
    (h : Agrees m x r) (hsequence : v.isSequence = true) (hlength : v.length ≤ Value.countLimit)
    (hx : v.elementAt? i = some x) (hi : v.length = i + 1) (origin : Option Span) :
    Agrees (.last m i origin) v r := by
  have hlast : ((i : Int) + 1 == (v.length : Int)) = true := by
    rw [beq_iff_eq]
    omega
  refine ⟨?_, ?_⟩
  · rw [Matcher.definedAt, Value.length?_eq_some hsequence hlength]
    simp only [ok_bind, if_pos hlast, Value.element_eq_ok hx]
    exact h.1
  · rw [Matcher.bindings_last hsequence (Value.element_eq_ok hx)]
    exact h.2

/-- Where its index is not beyond the end, a splat captures the suffix under its name. -/
theorem Splat.agrees_closing {v w : Value} {i : Nat} (s : Splat) (hsequence : v.isSequence = true)
    (hlength : v.length ≤ Value.countLimit) (hi : i ≤ v.length) (hw : v.suffix i = .ok w)
    (source : String) (owner : Extent) :
    Agrees (s.closing source owner i) v (some (s.name?.toList.map fun n => (n, w))) := by
  have hroom : ¬ (v.length : Int) < (i : Int) := by omega
  cases s with
  | named e n =>
    refine ⟨?_, ?_⟩
    · simp only [Splat.closing, Matcher.definedAt, Value.length?_eq_some hsequence hlength,
        ok_bind, if_neg hroom, hw]
      rfl
    · intro bs hbs _
      cases hbs
      exact Matcher.bindings_remainder hsequence rfl hw
  | anonymous e =>
    refine ⟨?_, ?_⟩
    · simp only [Splat.closing, Matcher.definedAt, Value.length?_eq_some hsequence hlength,
        ok_bind, if_neg hroom]
      rfl
    · intro bs hbs _
      cases hbs
      exact Matcher.bindings_remainder_anything hsequence rfl

namespace Simulates

variable {m h t : Matcher} {v : Value} {r : Option Bindings} {p q : Prop}

theorem congr {r' : Option Bindings} (hm : Simulates m v r p) (hr : r' = r) (hpq : q ↔ p) :
    Simulates m v r' q := by
  rw [hr, propext hpq]
  exact hm

/-! ### Links of a chain -/

theorem nothing (hsequence : v.isSequence = true) (hlength : v.length ≤ Value.countLimit)
    (i : Nat) (origin : Option Span) (hq : ¬ q) :
    Simulates (.nothing i origin) v (captureRest [] v i) q := by
  refine Or.inr ⟨hq, ?_⟩
  by_cases hi : i = v.length
  · subst hi
    have hrest : captureRest [] v v.length = some [] := by
      simp [captureRest, fits, hasSplat, itemCount, captureEach]
    rw [hrest]
    exact Agrees.nothing hsequence hlength origin
  · have hrest : captureRest [] v i = none := by
      simp [captureRest, fits, hasSplat, itemCount, hi]
    rw [hrest]
    apply Agrees.of_none
    have hne : ¬ (v.length : Int) = (i : Int) := by omega
    rw [Matcher.definedAt, Value.length?_eq_some hsequence hlength]
    simp only [ok_bind, beq_eq_false_iff_ne.mpr hne]
    rfl

theorem definedAt_item (hsequence : v.isSequence = true)
    (hlength : v.length ≤ Value.countLimit) {i : Nat} {x : Value}
    (hx : v.elementAt? i = some x) (origin : Option Span) :
    (Matcher.item h t i origin).definedAt v =
      (h.definedAt x >>= fun b => if b then t.definedAt v else .ok false) := by
  have hi : (i : Int) < (v.length : Int) := by
    have hlt := Value.lt_length_of_elementAt? hx
    omega
  rw [Matcher.definedAt, Value.length?_eq_some hsequence hlength]
  simp only [ok_bind, if_pos hi, Value.element_eq_ok hx]
  rfl

theorem definedAt_item_outside (hsequence : v.isSequence = true)
    (hlength : v.length ≤ Value.countLimit) {i : Nat} (hi : ¬ i < v.length)
    (origin : Option Span) : (Matcher.item h t i origin).definedAt v = .ok false := by
  have hi : ¬ (i : Int) < (v.length : Int) := by omega
  rw [Matcher.definedAt, Value.length?_eq_some hsequence hlength]
  simp only [ok_bind, if_neg hi]
  rfl

/-- Behind an item that captures, a link captures what the item does and then what its
    rest does; the names of the two keep the bindings apart. -/
theorem agrees_item (hsequence : v.isSequence = true) (hlength : v.length ≤ Value.countLimit)
    {i : Nat} {x : Value} (hx : v.elementAt? i = some x) (origin : Option Span)
    {left : Bindings} (hhead : Agrees h x (some left)) (htail : Agrees t v r) :
    Agrees (.item h t i origin) v (r.map (left ++ ·)) := by
  obtain ⟨hdefined, hcaptured⟩ := hhead
  obtain ⟨htdefined, htcaptured⟩ := htail
  refine ⟨?_, ?_⟩
  · rw [definedAt_item hsequence hlength hx, hdefined, Option.isSome_map]
    exact htdefined
  · intro bs hbs hnodup
    obtain ⟨right, rfl, rfl⟩ := Option.map_eq_some_iff.mp hbs
    rw [Matcher.names, List.nodup_append] at hnodup
    obtain ⟨hheadnodup, htailnodup, hdisjoint⟩ := hnodup
    have hleft := hcaptured left rfl hheadnodup
    have hright := htcaptured right rfl htailnodup
    have hbindings : (Matcher.item h t i origin).bindings v = left.merge right := by
      rw [Matcher.bindings_item hsequence (Value.element_eq_ok hx), hleft, ok_bind, hright,
        ok_bind]
    rw [hbindings]
    apply merge_eq_ok
    intro b hb hmem
    rw [Matcher.keys_of_bindings hdefined hleft] at hmem
    have hb := List.mem_map_of_mem (f := (·.1)) hb
    rw [Matcher.keys_of_bindings htdefined hright] at hb
    exact hdisjoint b.1 hmem b.1 hb rfl

/-- A link agrees if its item does with the element and its rest does with the
    rest. -/
theorem item (hv : v.WellFormed) (hsequence : v.isSequence = true)
    (hlength : v.length ≤ Value.countLimit) (i : Nat) (origin : Option Span)
    {rhead : Value → Option Bindings} {phead : Value → Prop}
    (hhead : ∀ x, v.elementAt? i = some x → Simulates h x (rhead x) (phead x))
    (htail : ∀ x bs, v.elementAt? i = some x → rhead x = some bs → Simulates t v r p) :
    Simulates (.item h t i origin) v
      ((v.elementAt? i).bind fun x => (rhead x).bind fun bs => r.map (bs ++ ·))
      (∃ x, v.elementAt? i = some x ∧ (phead x ∨ (rhead x).isSome = true ∧ p)) := by
  by_cases hi : i < v.length
  · obtain ⟨x, hx⟩ := Value.exists_elementAt? hv hsequence hi
    have hdefined := definedAt_item (h := h) (t := t) hsequence hlength hx origin
    rw [hx, Option.bind_some]
    rcases hhead x hx with ⟨hphead, herror⟩ | ⟨hphead, hagrees⟩
    · refine Or.inl ⟨⟨x, rfl, Or.inl hphead⟩, ?_⟩
      rw [hdefined, herror]
      rfl
    · cases hrhead : rhead x with
      | none =>
        -- the item does not match, so the rest is not asked
        rw [hrhead] at hagrees
        refine Or.inr ⟨?_, Agrees.of_none ?_⟩
        · rintro ⟨y, hy, hphead' | ⟨hsome, -⟩⟩
          · cases hy
            exact hphead hphead'
          · cases hy
            rw [hrhead] at hsome
            cases hsome
        · rw [hdefined, hagrees.1]
          rfl
      | some left =>
        rw [hrhead] at hagrees
        rcases htail x left hx hrhead with ⟨hp, herror⟩ | ⟨hp, htagrees⟩
        · refine Or.inl ⟨⟨x, rfl, Or.inr ⟨by rw [hrhead]; rfl, hp⟩⟩, ?_⟩
          rw [hdefined, hagrees.1]
          exact herror
        · refine Or.inr ⟨?_, ?_⟩
          · rintro ⟨y, hy, hphead' | ⟨-, hp'⟩⟩
            · cases hy
              exact hphead hphead'
            · exact hp hp'
          · exact agrees_item hsequence hlength hx origin hagrees htagrees
  · rw [Value.elementAt?_eq_none hi]
    refine Or.inr ⟨?_, Agrees.of_none ?_⟩
    · rintro ⟨x, hx, -⟩
      cases hx
    · exact definedAt_item_outside hsequence hlength hi origin

/-- The last of several items is looked at where no element follows. -/
theorem last (hv : v.WellFormed) (hsequence : v.isSequence = true)
    (hlength : v.length ≤ Value.countLimit) (i : Nat) (origin : Option Span)
    {rlast : Value → Option Bindings} {plast : Value → Prop}
    (hlast : ∀ x, v.elementAt? i = some x → v.length = i + 1 → Simulates m x (rlast x) (plast x)) :
    Simulates (.last m i origin) v
      (if v.length = i + 1 then (v.elementAt? i).bind rlast else none)
      (∃ x, v.elementAt? i = some x ∧ v.length = i + 1 ∧ plast x) := by
  by_cases hi : v.length = i + 1
  · obtain ⟨x, hx⟩ := Value.exists_elementAt? hv hsequence (by omega : i < v.length)
    rw [if_pos hi, hx, Option.bind_some]
    rcases hlast x hx hi with ⟨hplast, herror⟩ | ⟨hplast, hagrees⟩
    · refine Or.inl ⟨⟨x, rfl, hi, hplast⟩, ?_⟩
      have hlastindex : ((i : Int) + 1 == (v.length : Int)) = true := by
        rw [beq_iff_eq]
        omega
      rw [Matcher.definedAt, Value.length?_eq_some hsequence hlength]
      simp only [ok_bind, if_pos hlastindex, Value.element_eq_ok hx, herror]
    · refine Or.inr ⟨?_, hagrees.last hsequence hlength hx hi origin⟩
      rintro ⟨y, hy, -, hplast'⟩
      cases hy
      exact hplast hplast'
  · rw [if_neg hi]
    refine Or.inr ⟨?_, Agrees.of_none ?_⟩
    · rintro ⟨x, -, hi', -⟩
      exact hi hi'
    · have hlastindex : ¬ ((i : Int) + 1 == (v.length : Int)) = true := by
        rw [beq_iff_eq]
        omega
      rw [Matcher.definedAt, Value.length?_eq_some hsequence hlength]
      simp only [ok_bind, if_neg hlastindex]
      rfl

end Simulates

/-- A splat takes what is left, if the items before it have their elements. -/
theorem Splat.simulates {v : Value} (hsequence : v.isSequence = true)
    (hlength : v.length ≤ Value.countLimit) (source : String) (owner : Extent) (i : Nat)
    (s : Splat) {q : Prop} (hq : ¬ q) :
    Simulates (s.closing source owner i) v (captureRest [.splat s.name?] v i) q := by
  refine Or.inr ⟨hq, ?_⟩
  by_cases hi : i ≤ v.length
  · have hfits : fits [Entry.splat (α := Literal) s.name?] i v.length = true := by
      simp [fits, hasSplat, itemCount, hi]
    obtain ⟨w, hw⟩ := Value.exists_suffix hsequence hlength hi
    have hcapture : captureRest [.splat s.name?] v i =
        some (s.name?.toList.map fun n => (n, w)) := by
      rw [captureRest, if_pos hfits]
      cases s with
      | named e n =>
        simp only [Splat.name?, captureEach, hw]
        rfl
      | anonymous e => rfl
    rw [hcapture]
    exact s.agrees_closing hsequence hlength hi hw source owner
  · have hfits : fits [Entry.splat (α := Literal) s.name?] i v.length = false := by
      simp [fits, hasSplat, itemCount, hi]
    have hroom : (v.length : Int) < (i : Int) := by omega
    rw [captureRest, hfits]
    apply Agrees.of_none
    simp only [Splat.closing, Matcher.definedAt, Value.length?_eq_some hsequence hlength, ok_bind,
      if_pos hroom]
    rfl

/-! ### What is asked for of an array -/

section Asked

variable {q : Outline Literal} {es : List (Entry Literal)} {v x : Value} {i : Nat}

theorem EachComparable.head (h : EachComparable (.pattern q :: es) v i)
    (hx : v.elementAt? i = some x) (hlast : i ≠ 0 → es = [] → v.length = i + 1) :
    q.Comparable x :=
  fun l y hasks => h l y (.here hx hlast hasks)

theorem EachComparable.tail (h : EachComparable (.pattern q :: es) v i)
    (hx : v.elementAt? i = some x) {bs : Bindings} (hbs : q.capture? x = some bs) :
    EachComparable es v (i + 1) :=
  fun l y hasks => h l y (.later hx hbs hasks)

theorem not_eachUncountable_nil : ¬ EachUncountable [] v i := by
  rintro ⟨fs, y, hasks, -⟩
  cases hasks

theorem not_eachUncountable_splat (s : Option String) : ¬ EachUncountable (.splat s :: es) v i := by
  rintro ⟨fs, y, hasks, -⟩
  cases hasks

theorem eachUncountable_pattern_iff (hmore : i = 0 ∨ es ≠ []) :
    EachUncountable (.pattern q :: es) v i ↔ ∃ x, v.elementAt? i = some x ∧
      (q.Uncountable x ∨ (q.capture? x).isSome = true ∧ EachUncountable es v (i + 1)) := by
  constructor
  · rintro ⟨fs, y, hasks, hlong⟩
    cases hasks with
    | here hx _ hasks => exact ⟨_, hx, Or.inl ⟨fs, y, hasks, hlong⟩⟩
    | later hx hbs hasks => exact ⟨_, hx, Or.inr ⟨by rw [hbs]; rfl, fs, y, hasks, hlong⟩⟩
  · rintro ⟨x, hx, ⟨fs, y, hasks, hlong⟩ | ⟨hsome, fs, y, hasks, hlong⟩⟩
    · refine ⟨fs, y, .here hx ?_ hasks, hlong⟩
      intro hi hnil
      rcases hmore with hzero | hne
      · exact absurd hzero hi
      · exact absurd hnil hne
    · obtain ⟨bs, hbs⟩ := Option.isSome_iff_exists.mp hsome
      exact ⟨fs, y, .later hx hbs hasks, hlong⟩

theorem eachUncountable_last_iff (hi : i ≠ 0) :
    EachUncountable [.pattern q] v i ↔ ∃ x, v.elementAt? i = some x ∧ v.length = i + 1 ∧
      q.Uncountable x := by
  constructor
  · rintro ⟨fs, y, hasks, hlong⟩
    cases hasks with
    | here hx hlast hasks => exact ⟨_, hx, hlast hi rfl, fs, y, hasks, hlong⟩
    | later hx hbs hasks => cases hasks
  · rintro ⟨x, hx, hlast, fs, y, hasks, hlong⟩
    exact ⟨fs, y, .here hx (fun _ _ => hlast) hasks, hlong⟩

theorem captureRest_last (q : Outline Literal) (v : Value) (i : Nat) :
    captureRest [.pattern q] v i =
      if v.length = i + 1 then (v.elementAt? i).bind q.capture? else none := by
  rw [captureRest_pattern]
  by_cases hi : v.length = i + 1
  · have hrest : captureRest [] v (i + 1) = some [] := by
      simp [captureRest, fits, hasSplat, itemCount, captureEach, hi]
    rw [if_pos hi, hrest]
    cases v.elementAt? i with
    | none => rfl
    | some x => cases hx : q.capture? x <;> simp [hx]
  · have hrest : captureRest [] v (i + 1) = none := by
      simp [captureRest, fits, hasSplat, itemCount, Ne.symm hi]
    rw [if_neg hi, hrest]
    cases v.elementAt? i with
    | none => rfl
    | some x => simp

end Asked

/-! ### Arrays -/

/-- The matcher looks at the length first: it is not defined at what is no sequence,
    and fails over a length that cannot be counted. -/
def Matcher.Measures (m : Matcher) : Prop :=
  ∀ v : Value, (v.isSequence = false → m.definedAt v = .ok false) ∧
    (v.isSequence = true → Value.countLimit < v.length → m.definedAt v = .error .overflow)

theorem Matcher.measures_of_bind {m : Matcher} {f : Value → Option Nat → Except Fault Bool}
    (hm : ∀ v, m.definedAt v = v.length? >>= f v) (hf : ∀ v, f v none = .ok false) :
    m.Measures := by
  intro v
  refine ⟨?_, ?_⟩
  · intro hsequence
    rw [hm, Value.length?_eq_none hsequence, ok_bind, hf]
  · intro hsequence hlength
    rw [hm, Value.length?_eq_error hsequence hlength, error_bind]

theorem Elements.measures {source : String} (es : Elements Literal) {m : Matcher}
    (hm : es.toMatcher source = .ok m) : m.Measures := by
  cases es with
  | one e i =>
    cases i with
    | splat s =>
      cases hm
      exact Matcher.measures_of_bind (fun _ => rfl) fun _ => rfl
    | pattern p =>
      obtain ⟨h, -, hm⟩ := bind_eq_ok_iff.mp hm
      cases hm
      exact Matcher.measures_of_bind (fun _ => rfl) fun _ => rfl
  | more e i c =>
    cases i with
    | splat s => cases hm
    | pattern p =>
      obtain ⟨t, -, hm⟩ := bind_eq_ok_iff.mp hm
      obtain ⟨h, -, hm⟩ := bind_eq_ok_iff.mp hm
      cases hm
      exact Matcher.measures_of_bind (fun _ => rfl) fun _ => rfl

/-- The matcher of an array agrees if it does with sequences that can be counted. -/
theorem Simulates.array {m : Matcher} {v : Value} {es : List (Entry Literal)}
    (hm : m.Measures)
    (hrest : v.isSequence = true → v.length ≤ Value.countLimit →
      Simulates m v (captureRest es v 0) (EachUncountable es v 0)) :
    Simulates m v ((Outline.array es).capture? v) ((Outline.array es).Uncountable v) := by
  cases hsequence : v.isSequence with
  | false =>
    have hnone : (Outline.array es).capture? v = none := by
      rw [Outline.capture?, hsequence]
      rfl
    rw [hnone]
    refine Or.inr ⟨?_, Agrees.of_none ((hm v).1 hsequence)⟩
    rintro ⟨fs, x, hasks, hx, -⟩
    cases hasks with
    | self => rw [hsequence] at hx; cases hx
    | array hv => rw [hsequence] at hv; cases hv
  | true =>
    by_cases hlength : v.length ≤ Value.countLimit
    · -- the array itself is not too long, so any that is lies within
      refine (hrest hsequence hlength).congr (Outline.capture?_array hsequence) ?_
      constructor
      · rintro ⟨fs, x, hasks, hx, hlong⟩
        cases hasks with
        | self => exact absurd hlong (Nat.not_lt.mpr hlength)
        | array _ _ hasks => exact ⟨fs, x, hasks, hx, hlong⟩
      · rintro ⟨fs, x, hasks, hx, hlong⟩
        exact ⟨fs, x, .array hsequence hlength hasks, hx, hlong⟩
    · have hlong : Value.countLimit < v.length := Nat.not_le.mp hlength
      refine Or.inl ⟨⟨es, v, .self _ v, hsequence, hlong⟩, ?_⟩
      exact (hm v).2 hsequence hlong

theorem Outline.Comparable.each {es : List (Entry Literal)} {v : Value}
    (h : (Outline.array es).Comparable v) (hsequence : v.isSequence = true)
    (hlength : v.length ≤ Value.countLimit) : EachComparable es v 0 :=
  fun l x hasks => h l x (.array hsequence hlength hasks)

/-! ### Patterns -/

mutual

/-- The matcher of a pattern agrees with the meaning of the pattern. -/
theorem Pattern.simulates {source : String} (p : Pattern Literal) {m : Matcher}
    (hm : p.toMatcher source = .ok m) {v : Value} (hv : v.WellFormed)
    (hcomparable : p.outline.Comparable v) :
    Simulates m v (p.outline.capture? v) (p.outline.Uncountable v) := by
  cases p with
  | literal e l =>
    cases hm
    obtain ⟨b, hb⟩ := hcomparable l v (.self _ v)
    refine Or.inr ⟨?_, ?_, ?_⟩
    · rintro ⟨fs, x, hasks, -⟩
      cases hasks
    · rw [Matcher.definedAt, hb, Pattern.outline, Outline.capture?,
        Literal.admits_of_accepts hb]
      cases b <;> rfl
    · intro bs hbs _
      rw [Pattern.outline, Outline.capture?, Literal.admits_of_accepts hb] at hbs
      cases b <;> cases hbs
      rfl
  | name n =>
    cases hm
    refine Or.inr ⟨?_, rfl, ?_⟩
    · rintro ⟨fs, x, hasks, -⟩
      cases hasks
    · intro bs hbs _
      cases hbs
      rfl
  | empty e =>
    cases hm
    apply Simulates.array (Matcher.measures_of_bind (fun _ => rfl) fun _ => rfl)
    intro hsequence hlength
    exact Simulates.nothing hsequence hlength 0 _ not_eachUncountable_nil
  | array e es =>
    apply Simulates.array (es.measures hm)
    intro hsequence hlength
    exact es.simulates hm hv hsequence hlength (hcomparable.each hsequence hlength)

theorem Elements.simulates {source : String} (es : Elements Literal) {m : Matcher}
    (hm : es.toMatcher source = .ok m) {v : Value} (hv : v.WellFormed)
    (hsequence : v.isSequence = true) (hlength : v.length ≤ Value.countLimit)
    (hcomparable : EachComparable es.entries v 0) :
    Simulates m v (captureRest es.entries v 0) (EachUncountable es.entries v 0) := by
  cases es with
  | one e i =>
    cases i with
    | splat s =>
      cases hm
      exact s.simulates hsequence hlength source e 0 (not_eachUncountable_splat _)
    | pattern p =>
      obtain ⟨h, hp, hm⟩ := bind_eq_ok_iff.mp hm
      cases hm
      refine Simulates.congr ?_ (captureRest_pattern _ _ v 0)
        (eachUncountable_pattern_iff (Or.inl rfl))
      -- a lone item is matched before the length is looked at
      apply Simulates.item hv hsequence hlength 0
      · intro x hx
        have hhead := hcomparable.head hx fun hi => absurd rfl hi
        exact p.simulates hp (hv.elementAt? hx) hhead
      · intro x bs hx hbs
        exact Simulates.nothing hsequence hlength 1 _ not_eachUncountable_nil
  | more e i c =>
    cases i with
    | splat s => cases hm
    | pattern p =>
      obtain ⟨t, hc, hm⟩ := bind_eq_ok_iff.mp hm
      obtain ⟨h, hp, hm⟩ := bind_eq_ok_iff.mp hm
      cases hm
      refine Simulates.congr ?_ (captureRest_pattern _ _ v 0)
        (eachUncountable_pattern_iff (Or.inl rfl))
      apply Simulates.item hv hsequence hlength 0
      · intro x hx
        have hhead := hcomparable.head hx fun hi => absurd rfl hi
        exact p.simulates hp (hv.elementAt? hx) hhead
      · intro x bs hx hbs
        exact c.simulates 1 Nat.one_ne_zero hc hv hsequence hlength (hcomparable.tail hx hbs)

/-- From each index on, a chain agrees with the meaning of the entries from there. -/
theorem Chain.simulates {source : String} (c : Chain Literal) (i : Nat) (hi : i ≠ 0)
    {m : Matcher} (hm : c.toMatcher source i = .ok m) {v : Value} (hv : v.WellFormed)
    (hsequence : v.isSequence = true) (hlength : v.length ≤ Value.countLimit)
    (hcomparable : EachComparable c.entries v i) :
    Simulates m v (captureRest c.entries v i) (EachUncountable c.entries v i) := by
  cases c with
  | link e item c =>
    cases item with
    | splat s => cases hm
    | pattern p =>
      obtain ⟨h, hp, hm⟩ := bind_eq_ok_iff.mp hm
      obtain ⟨t, hc, hm⟩ := bind_eq_ok_iff.mp hm
      cases hm
      refine Simulates.congr ?_ (captureRest_pattern _ _ v i)
        (eachUncountable_pattern_iff (Or.inr c.entries_ne_nil))
      apply Simulates.item hv hsequence hlength i
      · intro x hx
        have hhead := hcomparable.head hx fun _ hnil => absurd hnil c.entries_ne_nil
        exact p.simulates hp (hv.elementAt? hx) hhead
      · intro x bs hx hbs
        exact c.simulates (i + 1) (Nat.succ_ne_zero i) hc hv hsequence hlength
          (hcomparable.tail hx hbs)
  | last e p =>
    obtain ⟨h, hp, hm⟩ := bind_eq_ok_iff.mp hm
    cases hm
    refine Simulates.congr ?_ (captureRest_last _ v i) (eachUncountable_last_iff hi)
    apply Simulates.last hv hsequence hlength i
    intro x hx hlast
    have hhead := hcomparable.head hx fun _ _ => hlast
    exact p.simulates hp (hv.elementAt? hx) hhead
  | lastSplat e s =>
    cases hm
    exact s.simulates hsequence hlength source e i (not_eachUncountable_splat _)

end

end Destructure
