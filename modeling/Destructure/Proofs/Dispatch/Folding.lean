/-
  Destructure/Proofs/Dispatch/Folding.lean
  ========================================
  **Folding a sequence** — two cases, one for the empty sequence and one that takes the
  head and goes back to the dispatcher with the tail, make a right fold. Of each sequence
  that the recursion comes to exactly one of the two applies, and each step leaves one
  element out, whatever kind the sequence has and the tail gets (`reaches_suffixes`). So
  the recursion ends behind the last element, and what comes out of it is the fold of the
  elements (`call_foldDispatcher`).
-/
import Mathlib
import Destructure.Dispatch.Action
import Destructure.Proofs.Compile.Views
import Destructure.Proofs.Dispatch.Search
import Destructure.Proofs.Matcher.Simulation
import Destructure.Proofs.Value.Suffix

namespace Destructure

/-! ### The values that a recursion comes to -/

/-- Run in the dispatcher, the program makes a call on the value. Behind each call it goes
    on with what comes of that. -/
inductive Program.Asks (d : Dispatcher) : Program Value → Value → Prop
  | here (v : Value) (next : Except Failure Value → Program Value) : Asks d (.call v next) v
  | later {v w : Value} {next : Except Failure Value → Program Value}
      {r : Except Failure Value} :
      d.call v = some r → Asks d (next r) w → Asks d (.call v next) w

/-- A call on the first value comes, by as many calls inside each other, to the second. -/
inductive Dispatcher.Reaches (d : Dispatcher) : Nat → Value → Value → Prop
  | start (v : Value) : d.Reaches 0 v v
  | again {n : Nat} {v w u : Value} {a : Answerer} :
      d.answerer v = .ok a → a.program.Asks d w → d.Reaches n w u → d.Reaches (n + 1) v u

/-- What comes to an outcome by itself asks for nothing. -/
theorem Program.not_asks_done (d : Dispatcher) (r : Run Value) (w : Value) :
    ¬ (Program.done r).Asks d w := by
  intro h
  cases h

/-! ### Sequences that can be folded -/

/-- A sequence that fills its shape and can be counted. -/
structure Value.Foldable (v : Value) : Prop where
  wellFormed : v.WellFormed
  isSequence : v.isSequence = true
  length_le : v.length ≤ Value.countLimit

theorem Value.Foldable.suffixes {v w : Value} {i : Nat} (h : v.Foldable)
    (hw : Suffixes v w i) : w.Foldable := by
  refine ⟨hw.wellFormed, hw.isSequence, ?_⟩
  rw [hw.length]
  exact (Nat.sub_le _ _).trans h.length_le

/-! ### The two patterns -/

/-- What `[head, *tail]` is turned into. -/
def headTailMatcher (o o' : Option Span) : Matcher :=
  .item (.capture "head" o)
    ((Splat.named ⟨7, 12⟩ ⟨⟨8, 12⟩, "tail"⟩).closing "[head, *tail]" ⟨5, 12⟩ 1) 0 o'

theorem compilePattern_end : ∃ p o, compilePattern "[]" = .ok p ∧ p.matcher = .nothing 0 o :=
  ⟨_, _, by cbv, rfl⟩

theorem compilePattern_headTail : ∃ q o o', compilePattern "[head, *tail]" = .ok q ∧
    q.matcher = headTailMatcher o o' :=
  ⟨_, _, _, by cbv, rfl⟩

section Patterns

variable {p q : CompiledPattern} {o o' o'' : Option Span} {v w x : Value}

theorem definedAt_end (hp : p.matcher = .nothing 0 o) (hv : v.Foldable) :
    p.definedAt v = .ok (v.length == 0) := by
  rw [CompiledPattern.definedAt, hp, Matcher.definedAt,
    Value.length?_eq_some hv.isSequence hv.length_le]
  have hzero : ((v.length : Int) == 0) = (v.length == 0) := by
    rw [Bool.eq_iff_iff, beq_iff_eq, beq_iff_eq]
    omega
  simp only [ok_bind, hzero, pure_eq_ok]

theorem match?_end (hp : p.matcher = .nothing 0 o) (hv : v.Foldable) (hzero : v.length = 0) :
    p.match? v = .ok (some []) := by
  rw [CompiledPattern.match?_eq_some_iff, definedAt_end hp hv, hzero, hp]
  exact ⟨rfl, rfl⟩

theorem agrees_headTail (hv : v.Foldable) (hx : v.elementAt? 0 = some x)
    (hw : v.suffix (1 : Nat) = .ok w) (o o' : Option Span) :
    Agrees (headTailMatcher o o') v (some [("head", x), ("tail", w)]) := by
  have hhead : Agrees (.capture "head" o) x (some [("head", x)]) := by
    refine ⟨rfl, ?_⟩
    intro bs hbs _
    cases hbs
    rfl
  have hone : 1 ≤ v.length := Value.lt_length_of_elementAt? hx
  have htail := (Splat.named ⟨7, 12⟩ ⟨⟨8, 12⟩, "tail"⟩).agrees_closing hv.isSequence
    hv.length_le hone hw "[head, *tail]" ⟨5, 12⟩
  exact Simulates.agrees_item hv.isSequence hv.length_le hx o' hhead htail

theorem exists_head_tail (hv : v.Foldable) (hpos : 0 < v.length) :
    ∃ x w, v.elementAt? 0 = some x ∧ v.suffix (1 : Nat) = .ok w ∧ Value.Suffixes v w 1 := by
  obtain ⟨x, hx⟩ := Value.exists_elementAt? hv.wellFormed hv.isSequence hpos
  obtain ⟨w, hw⟩ := Value.exists_suffix hv.isSequence hv.length_le hpos
  exact ⟨x, w, hx, hw, .of_suffix hv.wellFormed hv.isSequence hpos hw⟩

theorem definedAt_headTail (hq : q.matcher = headTailMatcher o o') (hv : v.Foldable) :
    q.definedAt v = .ok (!(v.length == 0)) := by
  rw [CompiledPattern.definedAt, hq]
  by_cases hzero : v.length = 0
  · rw [hzero]
    exact Simulates.definedAt_item_outside hv.isSequence hv.length_le (by omega) o'
  · obtain ⟨x, w, hx, hw, -⟩ := exists_head_tail hv (Nat.pos_of_ne_zero hzero)
    rw [(agrees_headTail hv hx hw o o').1, beq_eq_false_iff_ne.mpr hzero]
    rfl

theorem match?_headTail (hq : q.matcher = headTailMatcher o o') (hv : v.Foldable)
    (hx : v.elementAt? 0 = some x) (hw : v.suffix (1 : Nat) = .ok w) :
    q.match? v = .ok (some [("head", x), ("tail", w)]) := by
  have hagrees := agrees_headTail hv hx hw o o'
  have hnames : (headTailMatcher o o').names = ["head", "tail"] := rfl
  have hnodup : (headTailMatcher o o').names.Nodup := by
    rw [hnames]
    decide
  rw [CompiledPattern.match?_eq_some_iff, CompiledPattern.definedAt, hq]
  exact ⟨hagrees.1, hagrees.2 _ rfl hnodup⟩

end Patterns

/-! ### The dispatcher -/

def endBranch (z : Value) : Branch := fun _ => pure z

def stepBranch (f : Value → Value → Value) : Branch := fun bs => do
  let head ← bs.get "head"
  let rest ← .again (← bs.get "tail")
  return f head rest

/-- A value for the empty sequence, and for any other what a function makes of its head and
    of the answer for its tail. -/
def foldCases (z : Value) (f : Value → Value → Value) : List (PatternSource × Branch) :=
  [(.text "[]", endBranch z), (.text "[head, *tail]", stepBranch f)]

def foldDispatcher (p q : CompiledPattern) (z : Value) (f : Value → Value → Value) :
    Dispatcher :=
  ⟨[⟨p, endBranch z, none⟩, ⟨q, stepBranch f, none⟩], none⟩

theorem ofCases_foldCases {p q : CompiledPattern} (hp : compilePattern "[]" = .ok p)
    (hq : compilePattern "[head, *tail]" = .ok q) (z : Value) (f : Value → Value → Value) :
    Dispatcher.ofCases (foldCases z f) = .ok (foldDispatcher p q z f) := by
  simp only [Dispatcher.ofCases, foldCases, List.foldlM_cons, List.foldlM_nil,
    Dispatcher.register, PatternSource.resolve, hp, hq]
  rfl

/-- The step calls the dispatcher on the tail, and is done with what comes of that. -/
theorem stepBranch_eq (f : Value → Value → Value) (x w : Value) :
    stepBranch f [("head", x), ("tail", w)] =
      .call w fun r => .done (liftM (r.map (f x))) := by
  have hstep : stepBranch f [("head", x), ("tail", w)] =
      .call w fun r => (Program.done (liftM r)).bind fun rest => pure (f x rest) := rfl
  rw [hstep]
  congr 1
  funext r
  cases r <;> rfl

/-- What is done with the head and the tail asks for the tail alone. -/
theorem asks_stepBranch_iff (d : Dispatcher) (f : Value → Value → Value) (x w u : Value) :
    (stepBranch f [("head", x), ("tail", w)]).Asks d u ↔ u = w := by
  rw [stepBranch_eq]
  constructor
  · intro h
    cases h with
    | here => rfl
    | later _ hasks => exact absurd hasks (Program.not_asks_done d _ u)
  · rintro rfl
    exact .here _ _

section Fold

variable {p q : CompiledPattern} {o o' o'' : Option Span} {z : Value}
  {f : Value → Value → Value} {v w x u : Value}

theorem firstCase?_end (hp : p.matcher = .nothing 0 o) (hv : v.Foldable)
    (hzero : v.length = 0) :
    firstCase? (foldDispatcher p q z f).cases v = .ok (some (⟨p, endBranch z, none⟩, [])) := by
  have hnone : ∀ e ∈ ([] : List Case), e.Rejects v := List.forall_mem_nil _
  refine firstCase?_of_applies hnone ⟨match?_end hp hv hzero, ?_⟩ _
  intro g hg
  cases hg

theorem firstCase?_headTail (hp : p.matcher = .nothing 0 o)
    (hq : q.matcher = headTailMatcher o' o'') (hv : v.Foldable)
    (hx : v.elementAt? 0 = some x) (hw : v.suffix (1 : Nat) = .ok w) :
    firstCase? (foldDispatcher p q z f).cases v =
      .ok (some (⟨q, stepBranch f, none⟩, [("head", x), ("tail", w)])) := by
  have hpos := Value.lt_length_of_elementAt? hx
  have hrejects : ∀ e ∈ [(⟨p, endBranch z, none⟩ : Case)], e.Rejects v := by
    intro e he
    rw [List.mem_singleton] at he
    subst he
    refine Or.inl (CompiledPattern.match?_of_not_definedAt ?_)
    rw [definedAt_end hp hv, beq_eq_false_iff_ne.mpr (Nat.ne_of_gt hpos)]
  refine firstCase?_of_applies hrejects ⟨match?_headTail hq hv hx hw, ?_⟩ []
  intro g hg
  cases hg

/-- A call on a sequence that is not empty makes one call, on its tail. -/
theorem asked_by_step (hp : p.matcher = .nothing 0 o)
    (hq : q.matcher = headTailMatcher o' o'') (hv : v.Foldable) {a : Answerer}
    (hanswerer : (foldDispatcher p q z f).answerer v = .ok a)
    (hasks : a.program.Asks (foldDispatcher p q z f) w) :
    0 < v.length ∧ Value.Suffixes v w 1 := by
  rcases Nat.eq_zero_or_pos v.length with hzero | hpos
  · rw [Dispatcher.answerer_of_found (firstCase?_end hp hv hzero)] at hanswerer
    cases hanswerer
    exact absurd hasks (Program.not_asks_done _ _ w)
  · obtain ⟨x, w', hx, hw', hsuffixes⟩ := exists_head_tail hv hpos
    rw [Dispatcher.answerer_of_found (firstCase?_headTail hp hq hv hx hw')] at hanswerer
    cases hanswerer
    rw [(asks_stepBranch_iff _ f x w' w).mp hasks]
    exact ⟨hpos, hsuffixes⟩

/-- What the recursion comes to by some steps is what the sequence has from as many elements
    on. -/
theorem reaches_suffixes (hp : p.matcher = .nothing 0 o)
    (hq : q.matcher = headTailMatcher o' o'') {n : Nat} (hv : v.Foldable)
    (h : (foldDispatcher p q z f).Reaches n v u) :
    n ≤ v.length ∧ Value.Suffixes v u n := by
  induction h with
  | start v => exact ⟨Nat.zero_le _, .refl hv.wellFormed hv.isSequence⟩
  | @again n v w u a hanswerer hasks _ ih =>
    obtain ⟨hpos, hsuffixes⟩ := asked_by_step hp hq hv hanswerer hasks
    obtain ⟨hn, hrest⟩ := ih (hv.suffixes hsuffixes)
    refine ⟨?_, ?_⟩
    · rw [hsuffixes.length] at hn
      omega
    · rw [Nat.add_comm]
      exact hsuffixes.trans hrest

theorem exists_reaches (hp : p.matcher = .nothing 0 o)
    (hq : q.matcher = headTailMatcher o' o'') {n : Nat} (hv : v.Foldable) (hn : n ≤ v.length) :
    ∃ u, (foldDispatcher p q z f).Reaches n v u := by
  induction n generalizing v with
  | zero => exact ⟨v, .start v⟩
  | succ n ih =>
    obtain ⟨x, w, hx, hw, hsuffixes⟩ := exists_head_tail hv (Nat.lt_of_lt_of_le n.succ_pos hn)
    have hlength := hsuffixes.length
    obtain ⟨u, hu⟩ := ih (hv.suffixes hsuffixes) (by omega)
    have hanswerer := Dispatcher.answerer_of_found
      (firstCase?_headTail (z := z) (f := f) hp hq hv hx hw)
    exact ⟨u, .again hanswerer ((asks_stepBranch_iff _ f x w w).mpr rfl) hu⟩

/-- A call makes the right fold of the elements. -/
theorem call_foldDispatcher (hp : p.matcher = .nothing 0 o)
    (hq : q.matcher = headTailMatcher o' o'') {xs : List Value} (hv : v.Foldable)
    (hxs : v.HasElements xs) : (foldDispatcher p q z f).call v = pure (xs.foldr f z) := by
  have hlength := hxs.length hv.wellFormed hv.isSequence
  -- on the elements: the tail, on which the call is made, has one less
  induction xs generalizing v with
  | nil =>
    rw [Dispatcher.call_of_found (firstCase?_end hp hv hlength)]
    exact Dispatcher.run_done _ _
  | cons y ys ih =>
    have hpos : 0 < v.length := by
      rw [hlength]
      exact Nat.succ_pos _
    obtain ⟨x, w, hx, hw, hsuffixes⟩ := exists_head_tail hv hpos
    obtain rfl : y = x := by
      have h0 := hxs 0
      rw [hx] at h0
      exact (Option.some.inj h0).symm
    have htail := hxs.tail hsuffixes
    have hw' := hv.suffixes hsuffixes
    have hrest := ih hw' htail (htail.length hw'.wellFormed hw'.isSequence)
    rw [Dispatcher.call_of_found (firstCase?_headTail hp hq hv hx hw)]
    dsimp only
    rw [stepBranch_eq, Dispatcher.run_call, hrest]
    exact Dispatcher.run_done _ _

end Fold

/-! ### Other values -/

section Others

variable {p q : CompiledPattern} {o o' o'' : Option Span} {z : Value}
  {f : Value → Value → Value} {v : Value}

theorem firstCase?_of_not_sequence (hp : p.matcher = .nothing 0 o)
    (hq : q.matcher = headTailMatcher o' o'') (hv : v.isSequence = false) :
    firstCase? (foldDispatcher p q z f).cases v = .ok none := by
  have hend : p.definedAt v = .ok false := by
    rw [CompiledPattern.definedAt, hp, Matcher.definedAt, Value.length?_eq_none hv]
    rfl
  have hheadTail : q.definedAt v = .ok false := by
    rw [CompiledPattern.definedAt, hq, headTailMatcher, Matcher.definedAt,
      Value.length?_eq_none hv]
    rfl
  apply firstCase?_of_exhausted
  intro c hc
  rcases List.mem_pair.mp hc with rfl | rfl
  · exact Or.inl (CompiledPattern.match?_of_not_definedAt hend)
  · exact Or.inl (CompiledPattern.match?_of_not_definedAt hheadTail)

/-- The first pattern asks for the length, which fails where that cannot be counted. -/
theorem firstCase?_of_uncountable (hp : p.matcher = .nothing 0 o) (hv : v.isSequence = true)
    (hlong : Value.countLimit < v.length) :
    firstCase? (foldDispatcher p q z f).cases v = .error (.fault .overflow) := by
  have hnone : ∀ e ∈ ([] : List Case), e.Rejects v := List.forall_mem_nil _
  refine firstCase?_of_fails hnone (Or.inl ?_) _
  rw [CompiledPattern.match?, CompiledPattern.definedAt, hp, Matcher.definedAt,
    Value.length?_eq_error hv hlong]
  rfl

end Others

/-- A dispatcher with a value for the empty sequence, and for any other with a function of
    its head and of the answer for its tail, makes the right fold of every sequence that can
    be counted. The recursion comes to one sequence for each number of elements that it
    leaves out, and no further, and of each exactly one of the two patterns is defined. Of
    what is not a sequence there is no answer, and a sequence that is too long to be counted
    overflows. -/
theorem folds_sequences (z : Value) (f : Value → Value → Value) :
    ∃ p q d, compilePattern "[]" = .ok p ∧ compilePattern "[head, *tail]" = .ok q ∧
      Dispatcher.ofCases (foldCases z f) = .ok d ∧ ∀ v : Value, v.WellFormed →
        (v.isSequence = true → v.length ≤ Value.countLimit →
          (∃ xs, v.HasElements xs ∧ d.call v = pure (xs.foldr f z)) ∧
          (∀ n, (∃ w, d.Reaches n v w) ↔ n ≤ v.length) ∧
          ∀ n w, d.Reaches n v w → w.isSequence = true ∧ w.length = v.length - n ∧
            (∀ j, w.elementAt? j = v.elementAt? (n + j)) ∧
            ∃ b, p.definedAt w = .ok b ∧ q.definedAt w = .ok (!b)) ∧
        (v.isSequence = true → Value.countLimit < v.length →
          d.call v = throw (.fault .overflow)) ∧
        (v.isSequence = false → Unanswered (d.call v) .noCase v d.lastTried) := by
  obtain ⟨p, o, hp, hend⟩ := compilePattern_end
  obtain ⟨q, o', o'', hq, hheadTail⟩ := compilePattern_headTail
  refine ⟨p, q, _, hp, hq, ofCases_foldCases hp hq z f, ?_⟩
  intro v hwellFormed
  refine ⟨?_, ?_, ?_⟩
  · intro hsequence hlength
    have hv : v.Foldable := ⟨hwellFormed, hsequence, hlength⟩
    refine ⟨?_, ?_, ?_⟩
    · obtain ⟨xs, hxs⟩ := Value.exists_hasElements hwellFormed hsequence
      exact ⟨xs, hxs, call_foldDispatcher hend hheadTail hv hxs⟩
    · intro n
      constructor
      · rintro ⟨w, hw⟩
        exact (reaches_suffixes hend hheadTail hv hw).1
      · exact exists_reaches hend hheadTail hv
    · intro n w hw
      obtain ⟨-, hsuffixes⟩ := reaches_suffixes hend hheadTail hv hw
      have hfoldable := hv.suffixes hsuffixes
      exact ⟨hsuffixes.isSequence, hsuffixes.length, hsuffixes.elementAt?, _,
        definedAt_end hend hfoldable, definedAt_headTail hheadTail hfoldable⟩
  · intro hsequence hlong
    exact Dispatcher.call_of_failed (firstCase?_of_uncountable hend hsequence hlong)
  · intro hsequence
    exact Dispatcher.call_of_exhausted
      (firstCase?_of_not_sequence hend hheadTail hsequence) rfl

/-- A range that counts down is folded from its end, and an array by its rows; a range with
    too many elements is not folded. -/
theorem folds_sequences_ranges :
    ∃ d v, Dispatcher.ofCases (foldCases .none fun x y => .list [x, y]) = .ok d ∧
      d.call (.range 5 (-2) (-3)) = pure (.list [.integer 5,
        .list [.integer 2, .list [.integer (-1), .none]]]) ∧
      Value.ofGrid .bool [2, 1] [.elementBool true, .elementBool false] = .ok v ∧
      d.call v = pure (.list [.array .bool [1] [.elementBool true],
        .list [.array .bool [1] [.elementBool false], .none]]) ∧
      d.call (.range 0 9223372036854775808 1) = throw (.fault .overflow) := by
  obtain ⟨p, q, d, -, -, hd, hfolds⟩ := folds_sequences .none fun x y => .list [x, y]
  have hgrid : Value.ofGrid .bool [2, 1] [.elementBool true, .elementBool false] =
      .ok (.array .bool [2, 1] [.elementBool true, .elementBool false]) := rfl
  have hrange : (Value.range 5 (-2) (-3)).HasElements
      [.integer 5, .integer 2, .integer (-1)] := by
    rintro (_ | _ | _ | i)
    · rfl
    · rfl
    · rfl
    · exact Value.elementAt?_eq_none (by simp [Value.length, rangeLength])
  have hrows : (Value.array .bool [2, 1] [.elementBool true, .elementBool false]).HasElements
      [.array .bool [1] [.elementBool true], .array .bool [1] [.elementBool false]] := by
    rintro (_ | _ | i)
    · rfl
    · rfl
    · exact Value.elementAt?_eq_none (by simp [Value.length])
  refine ⟨d, _, hd, ?_, hgrid, ?_,
    (hfolds (.range 0 9223372036854775808 1) trivial).2.1 rfl (by decide)⟩
  · obtain ⟨⟨xs, hxs, hcall⟩, -, -⟩ :=
      (hfolds (.range 5 (-2) (-3)) trivial).1 rfl (by decide)
    rw [hcall, hxs.unique hrange]
    rfl
  · have helements : AllWellFormed [.elementBool true, .elementBool false] :=
      ⟨trivial, trivial, trivial⟩
    have hwellFormed := Value.ofGrid_wellFormed helements hgrid
    obtain ⟨⟨xs, hxs, hcall⟩, -, -⟩ := (hfolds _ hwellFormed).1 rfl (by decide)
    rw [hcall, hxs.unique hrows]
    rfl

end Destructure
