/-
  Destructure/Proofs/Matcher/Equality.lean
  ========================================
  **Matchers of one outline are equal** — where a pattern stands in its text shows in
  its matcher in the origins only, and equality of matchers does not look at those.
-/
import Destructure.Matcher.OfPattern
import Destructure.Proofs.Matcher.Likeness
import Destructure.Proofs.Outcome
import Destructure.Proofs.Pattern.Outline
import Destructure.Proofs.Pattern.Valuation

namespace Destructure

/-- A matcher that does not know where it comes from. -/
def Matcher.unplaced : Matcher → Matcher
  | capture name _ => capture name none
  | literal l _ => literal l none
  | equalTo v _ => equalTo v none
  | nothing i _ => nothing i none
  | item h t i _ => item h.unplaced t.unplaced i none
  | remainder h t i _ => remainder h.unplaced t.unplaced i none
  | last e i _ => last e.unplaced i none
  | anything _ => anything none

theorem Matcher.equals_unplaced (m n : Matcher) :
    m.unplaced.equals n.unplaced = m.equals n := by
  induction m generalizing n with
  | capture | literal | equalTo | nothing | anything =>
    cases n <;> rfl
  | item h t i o ihh iht | remainder h t i o ihh iht =>
    cases n <;> simp only [Matcher.unplaced, Matcher.equals, Matcher.target?, ihh, iht]
  | last e i o ih =>
    cases n <;> simp only [Matcher.unplaced, Matcher.equals, Matcher.target?, ih]

/-! ### Matchers of a pattern and of its outline -/

theorem Splat.closing_unplaced (source source' : String) (e e' : Extent) (i : Int) (s : Splat) :
    (s.unplaced.closing source' e' i).unplaced = (s.closing source e i).unplaced := by
  cases s <;> rfl

mutual

/-- The matcher of a pattern is that of the pattern taken out of its places, but for
    the origins. -/
theorem Pattern.toMatcher_unplaced (source source' : String) (p : Pattern Literal) :
    (p.unplaced.toMatcher source').map Matcher.unplaced =
      (p.toMatcher source).map Matcher.unplaced := by
  cases p with
  | literal e v => rfl
  | name n => rfl
  | empty e => rfl
  | array e es => exact es.toMatcher_unplaced source source'

theorem Elements.toMatcher_unplaced (source source' : String) (es : Elements Literal) :
    (es.unplaced.toMatcher source').map Matcher.unplaced =
      (es.toMatcher source).map Matcher.unplaced := by
  cases es with
  | one e i =>
    cases i with
    | splat s => exact congrArg Except.ok (s.closing_unplaced source source' e nowhere 0)
    | pattern p =>
      refine map_bind_congr (p.toMatcher_unplaced source source') ?_
      intro h h' hh
      simp only [pure_eq_ok, Except.map, Matcher.unplaced, hh]
  | more e i c =>
    cases i with
    | splat s => rfl
    | pattern p =>
      refine map_bind_congr (c.toMatcher_unplaced source source' 1) ?_
      intro t t' ht
      refine map_bind_congr (p.toMatcher_unplaced source source') ?_
      intro h h' hh
      simp only [pure_eq_ok, Except.map, Matcher.unplaced, hh, ht]

theorem Chain.toMatcher_unplaced (source source' : String) (index : Int) (c : Chain Literal) :
    (c.unplaced.toMatcher source' index).map Matcher.unplaced =
      (c.toMatcher source index).map Matcher.unplaced := by
  cases c with
  | link e i c =>
    cases i with
    | splat s => rfl
    | pattern p =>
      refine map_bind_congr (p.toMatcher_unplaced source source') ?_
      intro h h' hh
      refine map_bind_congr (c.toMatcher_unplaced source source' (index + 1)) ?_
      intro t t' ht
      simp only [pure_eq_ok, Except.map, Matcher.unplaced, hh, ht]
  | last e p =>
    refine map_bind_congr (p.toMatcher_unplaced source source') ?_
    intro h h' hh
    simp only [pure_eq_ok, Except.map, Matcher.unplaced, hh]
  | lastSplat e s => exact congrArg Except.ok (s.closing_unplaced source source' e nowhere index)

end

/-- Patterns that are equal up to their places have matchers that are equal up to
    their origins. -/
theorem Pattern.toMatcher_of_unplaced_eq {p q : Pattern Literal} {source source' : String}
    {m : Matcher} (hpq : p.unplaced = q.unplaced) (hm : p.toMatcher source = .ok m) :
    ∃ n, q.toMatcher source' = .ok n ∧ m.unplaced = n.unplaced := by
  have hp := p.toMatcher_unplaced source source
  have hq := q.toMatcher_unplaced source' source
  rw [hpq, hq, hm] at hp
  cases hn : q.toMatcher source' with
  | error f =>
    rw [hn] at hp
    cases hp
  | ok n =>
    rw [hn] at hp
    exact ⟨n, rfl, (Except.ok.inj hp).symm⟩

/-! ### A matcher equals itself -/

theorem Matcher.alike_self {m : Matcher} (hself : m.AllLiterals fun l => l.Alike l) :
    m.Alike m := by
  induction m with
  | capture | nothing => rfl
  | literal l o => exact hself
  | equalTo => cases hself
  | item h t i o ihh iht | remainder h t i o ihh iht => exact ⟨ihh hself.1, iht hself.2, rfl⟩
  | last e i o ih => exact ⟨ih hself, rfl⟩
  | anything o => trivial

/-- Where the literals of a pattern equal themselves, its matcher does. -/
theorem Pattern.equals_self {source : String} (p : Pattern Literal) {m : Matcher}
    (hm : p.toMatcher source = .ok m)
    (hself : ∀ v ∈ p.outline.literals, v.equals v = true) : m.equals m = .ok true := by
  have hall : m.AllLiterals fun l => l.Alike l :=
    p.allLiterals hm fun v hv => Literal.equals_eq_true_iff.mp (hself v hv)
  obtain ⟨b, hb, hiff⟩ := Matcher.decides_equals hall hall
  rw [hb, hiff.mpr (Matcher.alike_self hall)]

/-- Patterns that are equal up to their places have equal matchers, if their
    literals equal themselves. -/
theorem Pattern.equals_of_unplaced_eq {p q : Pattern Literal} {source source' : String}
    {m : Matcher} (hpq : p.unplaced = q.unplaced)
    (hself : ∀ v ∈ p.outline.literals, v.equals v = true) (hm : p.toMatcher source = .ok m) :
    ∃ n, q.toMatcher source' = .ok n ∧ m.equals n = .ok true := by
  obtain ⟨n, hn, hmn⟩ := Pattern.toMatcher_of_unplaced_eq hpq hm
  refine ⟨n, hn, ?_⟩
  calc
    m.equals n = m.unplaced.equals n.unplaced := (m.equals_unplaced n).symm
    _ = m.unplaced.equals m.unplaced := by rw [hmn]
    _ = m.equals m := m.equals_unplaced m
    _ = .ok true := p.equals_self hm hself

end Destructure
