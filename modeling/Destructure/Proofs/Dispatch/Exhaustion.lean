/-
  Destructure/Proofs/Dispatch/Exhaustion.lean
  ===========================================
  **What is shown where no case applies** — a dispatcher without a fallback fails on a
  value that all its cases reject, and points at the pattern of the last one. It takes the
  place from the tree of that pattern. A pattern that was compiled from a text has one, and
  then the place is the one that the pattern shows of itself. A pattern that was put
  together by hand has none: it shows the origin of its matcher, the dispatcher nothing.
-/
import Mathlib
import Destructure.Proofs.Compile.Views
import Destructure.Proofs.Dispatch.Search

namespace Destructure

/-! ### The place that a pattern shows of itself -/

namespace CompiledPattern

variable {p : CompiledPattern} {v : Value} {s : Span}

theorem root_of_tree {t : Pattern Literal} (h : p.tree = some t) :
    p.root = some (t.extent.within p.source) := by
  rw [root, h]

theorem root_of_no_tree (h : p.tree = none) : p.root = p.matcher.origin := by
  rw [root, h]

theorem caret_of_root (h : p.root = some s) : p.caret = s.caret := by
  rw [caret, h]

end CompiledPattern

/-! ### The place that a dispatcher shows -/

namespace Dispatcher

variable {d : Dispatcher} {c : Case} {v : Value} {s : Span}

theorem lastTried_of_tree {t : Pattern Literal} (hlast : d.cases.getLast? = some c)
    (htree : c.pattern.tree = some t) : d.lastTried = c.pattern.root := by
  rw [CompiledPattern.root_of_tree htree]
  simp only [lastTried, hlast, htree, Option.map_some]

theorem lastTried_of_no_tree (hlast : d.cases.getLast? = some c)
    (htree : c.pattern.tree = none) : d.lastTried = none := by
  simp only [lastTried, hlast, htree, Option.map_none]

/-- A place that is shown is the one that the last pattern shows of itself. -/
theorem root_of_lastTried (hlast : d.cases.getLast? = some c) (h : d.lastTried = some s) :
    c.pattern.root = some s := by
  cases htree : c.pattern.tree with
  | none =>
    rw [lastTried_of_no_tree hlast htree] at h
    cases h
  | some t => rw [← lastTried_of_tree hlast htree, h]

/-- The dispatcher and the last pattern show different places only if the pattern has no
    tree and a matcher that comes from somewhere. -/
theorem lastTried_ne_root_iff (hlast : d.cases.getLast? = some c) :
    d.lastTried ≠ c.pattern.root ↔
      c.pattern.tree = none ∧ c.pattern.matcher.origin ≠ none := by
  cases htree : c.pattern.tree with
  | none =>
    rw [lastTried_of_no_tree hlast htree, CompiledPattern.root_of_no_tree htree]
    constructor
    · intro h
      exact ⟨rfl, h.symm⟩
    · rintro ⟨-, h⟩
      exact h.symm
  | some t =>
    constructor
    · intro h
      exact absurd (lastTried_of_tree hlast htree) h
    · rintro ⟨h, -⟩
      cases h

variable {shown : String}

theorem text_exhausted_of_some (hshown : v.show = .ok shown) (h : d.lastTried = some s)
    (colour : Bool) :
    (d.exhausted v).text colour = "no pattern matched " ++ shown ++ "\n" ++ s.caret := by
  rw [exhausted, h, Failure.unmatched_of_shown hshown]
  rfl

theorem text_exhausted_of_none (hshown : v.show = .ok shown) (h : d.lastTried = none)
    (colour : Bool) : (d.exhausted v).text colour = "no pattern matched " ++ shown := by
  rw [exhausted, h, Failure.unmatched_of_shown hshown]
  rfl

end Dispatcher

/-! ### Exhaustion -/

/-- Where all cases of a dispatcher reject the value, by the pattern or by the guard, and
    there is no fallback, the call fails with the value and the place of the last pattern.
    That is the place that this pattern shows of itself, under its caret and in its own
    failures, and the failure, in which the value is shown, ends with the caret; always so
    if the pattern was compiled from a text. Only of a pattern without a tree whose matcher
    comes from somewhere does the dispatcher not show the place that the pattern shows. -/
theorem exhaustion_shows_last_pattern (d : Dispatcher) (v : Value) (c : Case)
    (hlast : d.cases.getLast? = some c) (hfallback : d.fallback = none)
    (hrejects : ∀ e ∈ d.cases, e.Rejects v) :
    Unanswered (d.call v) .noCase v d.lastTried ∧ d.call v = throw (d.exhausted v) ∧
      (∀ s, d.lastTried = some s → c.pattern.root = some s ∧ c.pattern.caret = s.caret ∧
        ∀ shown, v.show = .ok shown → ∀ colour, (d.exhausted v).text colour =
          "no pattern matched " ++ shown ++ "\n" ++ c.pattern.caret) ∧
      (d.lastTried = none → ∀ shown, v.show = .ok shown → ∀ colour,
        (d.exhausted v).text colour = "no pattern matched " ++ shown) ∧
      (d.lastTried ≠ c.pattern.root ↔
        c.pattern.tree = none ∧ c.pattern.matcher.origin ≠ none) ∧
      (∀ source, compilePattern source = .ok c.pattern →
        ∃ t, Pattern.parse source = .ok t ∧ d.lastTried = some (t.extent.within source)) ∧
      ∀ w, c.pattern.definedAt w = .ok false →
        Unanswered (c.pattern.bindings w) (.pattern c.pattern.source) w c.pattern.root := by
  have hsearch := firstCase?_of_exhausted hrejects
  refine ⟨Dispatcher.call_of_exhausted hsearch hfallback,
    Dispatcher.call_of_no_case hsearch hfallback, ?_, ?_,
    Dispatcher.lastTried_ne_root_iff hlast, ?_, ?_⟩
  · intro s hs
    have hroot := Dispatcher.root_of_lastTried hlast hs
    have hcaret := CompiledPattern.caret_of_root hroot
    refine ⟨hroot, hcaret, ?_⟩
    intro shown hshown colour
    rw [Dispatcher.text_exhausted_of_some hshown hs, hcaret]
  · intro hnone shown hshown
    exact Dispatcher.text_exhausted_of_none hshown hnone
  · intro source hsource
    obtain ⟨t, m, hparse, -, -, hc⟩ := (compilePattern_eq_ok_iff source c.pattern).mp hsource
    have htree : c.pattern.tree = some t := by rw [hc]
    refine ⟨t, hparse, ?_⟩
    rw [Dispatcher.lastTried_of_tree hlast htree, CompiledPattern.root_of_tree htree, hc]
  · exact fun w hw => CompiledPattern.bindings_of_not_definedAt hw

/-- A pattern put together from the matcher of `[a]` shows the place where the matcher comes
    from, and a dispatcher that has tried it last shows none. -/
theorem exhaustion_shows_last_pattern_by_hand :
    ∃ p, compilePattern "[a]" = .ok p ∧
      let c : Case := ⟨{ p with tree := none }, fun bs => pure bs.toValue, none⟩
      let d : Dispatcher := ⟨[c], none⟩
      c.pattern.root = some ⟨"[a]", 1, 2⟩ ∧ d.lastTried ≠ c.pattern.root ∧
        d.call (.list []) =
          throw (.mismatch false "no pattern matched []" (.list []) none) := by
  have hread : ∃ p, compilePattern "[a]" = .ok p ∧
      p.matcher.origin = some ⟨"[a]", 1, 2⟩ ∧ p.match? (.list []) = .ok none :=
    ⟨_, by cbv, rfl, rfl⟩
  obtain ⟨p, hp, horigin, hmatch⟩ := hread
  refine ⟨p, hp, horigin, ?_⟩
  have hrejects : ∀ e ∈ [(⟨{ p with tree := none }, fun bs => pure bs.toValue, none⟩ : Case)],
      e.Rejects (.list []) := by
    intro e he
    rw [List.mem_singleton] at he
    subst he
    exact Or.inl hmatch
  obtain ⟨hcall, -, -, -, hdiffer, -, -⟩ :=
    exhaustion_shows_last_pattern ⟨_, none⟩ (.list []) ⟨{ p with tree := none }, _, none⟩
      rfl rfl hrejects
  refine ⟨hdiffer.mpr ⟨rfl, ?_⟩, hcall.1 "[]" rfl⟩
  rw [horigin]
  exact Option.some_ne_none _

end Destructure
