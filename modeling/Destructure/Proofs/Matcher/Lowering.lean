/-
  Destructure/Proofs/Matcher/Lowering.lean
  ========================================
  **When a pattern has a matcher** — exactly if no splat is followed in any of its
  arrays. The matcher is made along the tree and fails at the first such splat it
  meets, which need not be the first in the text; the failure is the same.
-/
import Destructure.Matcher.OfPattern
import Destructure.Proofs.Outcome
import Destructure.Proofs.Pattern.Walk

namespace Destructure

/-- There is a matcher and no splat strays, or a splat strays and that is the
    failure. -/
def Lowers (r : Except Failure Matcher) (ss : List Sighting) : Prop :=
  ((∃ m, r = .ok m) ∧ ∀ s, .strayed s ∉ ss) ∨ (r = .error strayedSplat ∧ ∃ s, .strayed s ∈ ss)

namespace Lowers

variable {r : Except Failure Matcher} {k : Matcher → Except Failure Matcher}
  {ss ts : List Sighting}

theorem of_ok (m : Matcher) (h : ∀ s, .strayed s ∉ ss) : Lowers (.ok m) ss :=
  Or.inl ⟨⟨m, rfl⟩, h⟩

theorem of_bound (m : Matcher) (ns : List Name) : Lowers (.ok m) (ns.map .bound) :=
  of_ok m fun s => strayed_not_mem_bound s ns

theorem bind (hr : Lowers r ss) (hk : ∀ m, Lowers (k m) ts) : Lowers (r >>= k) (ss ++ ts) := by
  rcases hr with ⟨⟨m, rfl⟩, hss⟩ | ⟨rfl, s, hs⟩
  · rcases hk m with ⟨⟨n, hn⟩, hts⟩ | ⟨hf, s, hs⟩
    · refine Or.inl ⟨⟨n, hn⟩, ?_⟩
      intro s hs
      rcases List.mem_append.mp hs with hs | hs
      · exact hss s hs
      · exact hts s hs
    · exact Or.inr ⟨hf, s, List.mem_append_right ss hs⟩
  · exact Or.inr ⟨rfl, s, List.mem_append_left ts hs⟩

theorem map (hr : Lowers r ss) (f : Matcher → Matcher) :
    Lowers (r >>= fun m => pure (f m)) ss := by
  have hpure : ∀ m, Lowers (pure (f m)) [] := fun m => of_ok (f m) (by simp)
  have h := hr.bind hpure
  rwa [List.append_nil] at h

theorem swap (h : Lowers r (ss ++ ts)) : Lowers r (ts ++ ss) := by
  unfold Lowers at *
  simp only [List.mem_append] at *
  simpa only [or_comm] using h

end Lowers

mutual

/-- A pattern has a matcher exactly if no splat strays in it. -/
theorem Pattern.lowers (source : String) (p : Pattern Literal) :
    Lowers (p.toMatcher source) p.sightings := by
  cases p with
  | literal e v => exact .of_ok _ (by simp [Pattern.sightings])
  | name n => exact .of_bound _ [n]
  | empty e => exact .of_ok _ (by simp [Pattern.sightings])
  | array e es => exact es.lowers source

theorem Elements.lowers (source : String) (es : Elements Literal) :
    Lowers (es.toMatcher source) es.sightings := by
  cases es with
  | one e i =>
    cases i with
    | pattern p => exact (p.lowers source).map _
    | splat s => exact .of_bound _ s.identifiers
  | more e i c =>
    cases i with
    | pattern p =>
      have hhead : ∀ t : Matcher, Lowers (p.toMatcher source >>= fun h =>
          pure (.item h t 0 (some (e.within source)))) p.sightings :=
        fun t => (p.lowers source).map _
      -- the chain is lowered before the item that it follows
      exact ((c.lowers source 1).bind hhead).swap
    | splat s => exact Or.inr ⟨rfl, s, by simp [Elements.sightings, Item.strays]⟩

theorem Chain.lowers (source : String) (index : Int) (c : Chain Literal) :
    Lowers (c.toMatcher source index) c.sightings := by
  cases c with
  | link e i c =>
    cases i with
    | pattern p =>
      refine (p.lowers source).bind ?_
      intro h
      exact (c.lowers source (index + 1)).map _
    | splat s => exact Or.inr ⟨rfl, s, by simp [Chain.sightings, Item.strays]⟩
  | last e p => exact (p.lowers source).map _
  | lastSplat e s => exact .of_bound _ s.identifiers

end

/-- Where no splat strays, the pattern has a matcher. -/
theorem Pattern.exists_toMatcher (source : String) {p : Pattern Literal}
    (h : ∀ s, .strayed s ∉ p.sightings) : ∃ m, p.toMatcher source = .ok m := by
  rcases p.lowers source with ⟨hm, -⟩ | ⟨-, s, hs⟩
  · exact hm
  · exact absurd hs (h s)

end Destructure
