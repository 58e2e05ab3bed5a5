/-
  Destructure/Proofs/Compile/Views.lean
  =====================================
  **The three views of a compiled pattern** — whether it matches a value, the bindings
  if it does, and the bindings or a failure. Names do not repeat in a pattern that has
  been compiled, so the bindings of a value that it matches are never in conflict.
-/
import Mathlib
import Destructure.Proofs.Compile.Compilation
import Destructure.Proofs.Matcher.Capture
import Destructure.Proofs.Mismatch
import Destructure.Proofs.Pattern.Order

namespace Destructure

/-- The names of a compiled pattern are what the text says at the identifiers of its
    tree, and differ. -/
theorem names_of_compilePattern {source : String} {c : CompiledPattern}
    (hc : compilePattern source = .ok c) :
    ∃ t, c.tree = some t ∧ c.names.Nodup ∧ c.matcher.names = c.names ∧
      c.names = (t.nodes.filter Node.isIdentifier).map
        fun n => (n.extent.within source).text := by
  obtain ⟨p, m, hp, hnil, hm, rfl⟩ := (compilePattern_eq_ok_iff source c).mp hc
  have hnodup := (p.violations_eq_nil_iff.mp hnil).2
  have hnames : p.names = p.identifiers.map Name.text := p.names_eq_of_nodup hnodup
  refine ⟨p, rfl, ?_, ?_, ?_⟩
  · dsimp only
    rwa [hnames]
  · dsimp only
    rw [p.names_toMatcher hm, hnames]
  · dsimp only
    rw [hnames, p.filter_nodes, List.map_map]
    apply List.map_congr_left
    intro n hn
    exact (text_of_identifier hp hn).symm

/-! ### What a match is -/

section Match

variable {c : CompiledPattern} {v : Value}

theorem CompiledPattern.match?_eq_some_iff {bs : Bindings} :
    c.match? v = .ok (some bs) ↔ c.definedAt v = .ok true ∧ c.matcher.bindings v = .ok bs := by
  rw [match?]
  cases hdefined : c.definedAt v with
  | error f =>
    constructor
    · intro h
      cases h
    · rintro ⟨h, -⟩
      cases h
  | ok b =>
    cases b with
    | false =>
      constructor
      · intro h
        cases h
      · rintro ⟨h, -⟩
        cases h
    | true =>
      simp only [orFault, ok_bind, if_true]
      constructor
      · intro h
        obtain ⟨bs', hbs, h⟩ := bind_eq_ok_iff.mp h
        cases h
        exact ⟨trivial, hbs⟩
      · rintro ⟨-, hbs⟩
        rw [hbs]
        rfl

theorem CompiledPattern.match?_of_not_definedAt (h : c.definedAt v = .ok false) :
    c.match? v = .ok none := by
  rw [match?, h]
  rfl

/-- The failure shows the pattern and the place of all of it. -/
theorem CompiledPattern.bindings_of_not_definedAt (h : c.definedAt v = .ok false) :
    Unanswered (c.bindings v) (.pattern c.source) v c.root := by
  apply unanswered_of_eq
  rw [bindings, h]
  rfl

end Match

/-- Where a compiled pattern is defined, the bindings are there to be had, and both ways
    to them lead to the same. -/
theorem exists_match_of_definedAt {source : String} {c : CompiledPattern} {v : Value}
    (hc : compilePattern source = .ok c) (hdefined : c.definedAt v = .ok true) :
    ∃ bs, c.match? v = .ok (some bs) ∧ c.bindings v = .ok bs := by
  obtain ⟨t, -, hnodup, hmatcher, -⟩ := names_of_compilePattern hc
  rw [← hmatcher] at hnodup
  obtain ⟨bs, hbs⟩ := Matcher.exists_bindings hnodup hdefined
  refine ⟨bs, CompiledPattern.match?_eq_some_iff.mpr ⟨hdefined, hbs⟩, ?_⟩
  rw [CompiledPattern.bindings, hdefined]
  exact hbs

/-! ### Agreement -/

/-- The three views agree at every value at which the first gives an answer. Of a value
    that the pattern matches, both others give the same bindings, under the names of the
    pattern, which are those at the identifiers of its tree and do not repeat. Of any
    other value there are no bindings, and the failure shows the value and the place of
    the whole pattern. -/
theorem views_agree (source : String) (c : CompiledPattern) (v : Value)
    (hc : compilePattern source = .ok c) :
    ∃ t, c.tree = some t ∧
      (c.definedAt v = .ok true → ∃ bs, c.match? v = .ok (some bs) ∧ c.bindings v = .ok bs ∧
        bs.map (·.1) = c.names ∧ c.names.Nodup ∧
        c.names = (t.nodes.filter Node.isIdentifier).map
          fun n => (n.extent.within source).text) ∧
      (c.definedAt v = .ok false → c.match? v = .ok none ∧
        Unanswered (c.bindings v) (.pattern source) v (some (t.extent.within source))) := by
  obtain ⟨t, ht, hnodup, hmatcher, hnames⟩ := names_of_compilePattern hc
  refine ⟨t, ht, ?_, ?_⟩
  · intro hdefined
    have hbindings : c.bindings v = c.matcher.bindings v := by
      rw [CompiledPattern.bindings, hdefined]
      rfl
    have hmatch : c.match? v = some <$> c.matcher.bindings v := by
      rw [CompiledPattern.match?, hdefined]
      rfl
    rcases c.matcher.captures v hdefined with ⟨bs, hbs, hkeys, -⟩ | ⟨n, -, hn⟩
    · refine ⟨bs, ?_, ?_, ?_, hnodup, hnames⟩
      · rw [hmatch, hbs]
        rfl
      · rw [hbindings, hbs]
      · rw [hkeys, hmatcher]
    · rw [hmatcher] at hn
      exact absurd hnodup hn.not_nodup
  · intro hdefined
    have hsource : c.source = source := by
      obtain ⟨p, m, -, -, -, rfl⟩ := (compilePattern_eq_ok_iff source c).mp hc
      rfl
    have hroot : c.root = some (t.extent.within source) := by
      rw [CompiledPattern.root, ht, hsource]
    refine ⟨CompiledPattern.match?_of_not_definedAt hdefined, ?_⟩
    rw [← hroot, ← hsource]
    exact CompiledPattern.bindings_of_not_definedAt hdefined

/-- A nested splat: a list that is matched, and a value that is not. -/
theorem views_agree_nested :
    ∃ c, compilePattern "[a, [*b]]" = .ok c ∧
      (∃ bs, c.match? (.list [.integer 1, .list [.integer 2]]) = .ok (some bs) ∧
        c.bindings (.list [.integer 1, .list [.integer 2]]) = .ok bs ∧
        bs.map (·.1) = ["a", "b"]) ∧
      c.match? .none = .ok none := by
  have hread : ∃ c, compilePattern "[a, [*b]]" = .ok c ∧ c.names = ["a", "b"] ∧
      c.definedAt (.list [.integer 1, .list [.integer 2]]) = .ok true ∧
      c.definedAt .none = .ok false :=
    ⟨_, by cbv, rfl, rfl, rfl⟩
  obtain ⟨c, hc, hnames, htrue, hfalse⟩ := hread
  obtain ⟨t, -, hmatched, -⟩ := views_agree _ c (.list [.integer 1, .list [.integer 2]]) hc
  obtain ⟨t', -, -, hunmatched⟩ := views_agree _ c .none hc
  obtain ⟨bs, hmatch, hbindings, hkeys, -⟩ := hmatched htrue
  exact ⟨c, hc, ⟨bs, hmatch, hbindings, by rw [hkeys, hnames]⟩, (hunmatched hfalse).1⟩

end Destructure
