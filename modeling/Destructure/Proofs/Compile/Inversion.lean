/-
  Destructure/Proofs/Compile/Inversion.lean
  =========================================
  **Matching undoes substitution** — a compiled pattern finds in a value the
  assignment that the value was made with, and where it matches a value of lists, the
  bindings make the value again. No part of a value is lost, taken twice or moved.
  The names of a compiled pattern differ, so an assignment is known by its lookups.
-/
import Mathlib
import Destructure.Proofs.Compile.Guard
import Destructure.Proofs.Compile.Views

namespace Destructure

/-! ### Lookups where the names differ -/

theorem lookup_of_mem {bs : Bindings} (hnodup : (bs.map (·.1)).Nodup) {b : String × Value}
    (hb : b ∈ bs) : bs.lookup b.1 = some b.2 := by
  obtain ⟨before, after, rfl⟩ := List.append_of_mem hb
  rw [List.lookup_eq_some_iff]
  refine ⟨before, after, rfl, ?_⟩
  intro c hc
  rw [List.map_append, List.map_cons] at hnodup
  have hdisjoint := (List.nodup_append.mp hnodup).2.2
  simpa using (hdisjoint c.1 (List.mem_map_of_mem hc) b.1 List.mem_cons_self).symm

/-- Bindings under the same names that can all be looked up in others are the others. -/
theorem eq_of_lookup {as bs : Bindings} (hnodup : (as.map (·.1)).Nodup)
    (hnames : bs.map (·.1) = as.map (·.1)) (h : ∀ b ∈ bs, as.lookup b.1 = some b.2) :
    bs = as := by
  have hlength : bs.length = as.length := by
    rw [← List.length_map, hnames, List.length_map]
  apply List.ext_getElem hlength
  intro i hi hi'
  have hname : bs[i].1 = as[i].1 := by
    simpa [hi, hi'] using congrArg (·[i]?) hnames
  have hfirst := h bs[i] (List.getElem_mem hi)
  have hsecond := lookup_of_mem hnodup (List.getElem_mem hi')
  rw [hname, hsecond] at hfirst
  exact Prod.ext hname (Option.some.inj hfirst).symm

/-! ### Both ways -/

section Compiled

variable {source : String} {p : Pattern Literal} {m : Matcher} {a : Bindings}

theorem assigned_of_names (hnames : a.map (·.1) = p.identifiers.map Name.text)
    (hnodup : (a.map (·.1)).Nodup) : Assigned a p.identifiers := by
  intro n hn
  have hmem : n.text ∈ a.map (·.1) := by
    rw [hnames]
    exact List.mem_map_of_mem hn
  obtain ⟨b, hb, hname⟩ := List.mem_map.mp hmem
  exact ⟨b.2, hname ▸ lookup_of_mem hnodup hb⟩

/-- What an assignment to all names makes of a pattern is taken, and captured is the
    assignment. -/
theorem bindings_substitute (hp : Pattern.parse source = .ok p)
    (hm : p.toMatcher source = .ok m) (hnames : a.map (·.1) = p.identifiers.map Name.text)
    (hnodup : (a.map (·.1)).Nodup) {w : Value} (hw : p.outline.substitute? a = some w)
    (hcount : w.Countable) : m.definedAt w = .ok true ∧ m.bindings w = .ok a := by
  have hmatcher := p.names_toMatcher hm
  obtain ⟨bs, ⟨hdefined, hbindings⟩, hassigned⟩ :=
    p.agrees_substitute hm (acceptable_of_parse hp) hw hcount
  have hbs := hbindings bs rfl (by rwa [hmatcher, ← hnames])
  have hkeys := Matcher.keys_of_bindings hdefined hbs
  refine ⟨hdefined, ?_⟩
  rw [hbs, eq_of_lookup hnodup (by rw [hkeys, hmatcher, hnames]) hassigned]

end Compiled

/-- Matching undoes substitution, in a pattern whose splats all have names. A value that
    an assignment makes of it, with lists for its splats, is matched and gives the
    assignment back, in the order of the names, as long as its lists are no longer than
    lists can be. And where a value is matched whose array patterns all lie opposite
    lists, its bindings make the value of the pattern again, but for equal numbers
    opposite literals. -/
theorem match_inverts_substitution (source : String) (c : CompiledPattern)
    (hc : compilePattern source = .ok c) :
    ∃ p, Pattern.parse source = .ok p ∧ c.tree = some p ∧
      ((∀ s ∈ p.splats, s.name? ≠ none) →
        (∀ a : Bindings, a.map (·.1) = c.names →
          (∀ s ∈ p.splats, ∀ n, s.name? = some n → ∃ xs, a.lookup n = some (.list xs)) →
          ∃ w, p.outline.substitute? a = some w ∧
            (w.Countable → c.match? w = .ok (some a))) ∧
        ∀ v bs, c.match? v = .ok (some bs) → p.outline.FacedByLists v →
          ∃ w, p.outline.substitute? bs = some w ∧ p.outline.Rebuilds w v) := by
  obtain ⟨p, m, hp, hnil, hm, rfl⟩ := (compilePattern_eq_ok_iff source c).mp hc
  have hnodup := (p.violations_eq_nil_iff.mp hnil).2
  have hidentifiers : p.names = p.identifiers.map Name.text := p.names_eq_of_nodup hnodup
  refine ⟨p, hp, rfl, ?_⟩
  intro hnamed
  constructor
  · intro a hnames hsplats
    replace hnames : a.map (·.1) = p.identifiers.map Name.text := hnames.trans hidentifiers
    have hdiffer : (a.map (·.1)).Nodup := by rwa [hnames]
    obtain ⟨w, hw⟩ := p.exists_substitute (assigned_of_names hnames hdiffer) hsplats
    refine ⟨w, hw, ?_⟩
    intro hcount
    rw [CompiledPattern.match?_eq_some_iff]
    exact bindings_substitute hp hm hnames hdiffer hw hcount
  · intro v bs hmatch hfaced
    obtain ⟨hdefined, hbs⟩ := CompiledPattern.match?_eq_some_iff.mp hmatch
    have hdiffer : (bs.map (·.1)).Nodup := by
      rwa [Matcher.keys_of_bindings hdefined hbs, p.names_toMatcher hm]
    have hcaptures : m.CapturesInto v bs :=
      ⟨hdefined, bs, hbs, fun b hb => lookup_of_mem hdiffer hb⟩
    exact p.rebuilds hm hnamed hcaptures hfaced

/-- A nested splat whose remainder is empty. -/
theorem match_inverts_substitution_remainder :
    ∃ c p, compilePattern "[a, [1, *b]]" = .ok c ∧ c.tree = some p ∧
      c.match? (.list [.none, .list [.integer 1]]) = .ok (some [("a", .none), ("b", .list [])]) ∧
      ∃ w, p.outline.substitute? [("a", .none), ("b", .list [])] = some w ∧
        p.outline.Rebuilds w (.list [.none, .list [.integer 1]]) := by
  have hread : ∃ c p, compilePattern "[a, [1, *b]]" = .ok c ∧ c.tree = some p ∧
      c.names = ["a", "b"] ∧ p.splats.map Splat.name? = [some "b"] ∧
      p.outline = .array [.pattern (.name "a"),
        .pattern (.array [.pattern (.literal (.integer 1)), .splat (some "b")])] :=
    ⟨_, _, by cbv, rfl, rfl, rfl, rfl⟩
  obtain ⟨c, p, hc, htree, hnames, hsplats, houtline⟩ := hread
  obtain ⟨q, -, hq, hinverts⟩ := match_inverts_substitution _ c hc
  obtain rfl : q = p := by
    rw [htree] at hq
    exact (Option.some.inj hq).symm
  have hsplat : ∀ s ∈ q.splats, s.name? = some "b" := by
    intro s hs
    have hmem := List.mem_map_of_mem (f := Splat.name?) hs
    rw [hsplats] at hmem
    exact List.mem_singleton.mp hmem
  have hnamed : ∀ s ∈ q.splats, s.name? ≠ none := by
    intro s hs
    rw [hsplat s hs]
    simp
  obtain ⟨hforward, hback⟩ := hinverts hnamed
  have hlists : ∀ s ∈ q.splats, ∀ n, s.name? = some n →
      ∃ xs, List.lookup n [("a", Value.none), ("b", .list [])] = some (.list xs) := by
    intro s hs n hn
    rw [hsplat s hs] at hn
    cases hn
    exact ⟨[], rfl⟩
  obtain ⟨w, hw, hmatch⟩ := hforward [("a", .none), ("b", .list [])] hnames.symm hlists
  have hvalue : w = .list [.none, .list [.integer 1]] := by
    rw [houtline] at hw
    cases hw
    rfl
  have hcount : w.Countable := by
    rw [hvalue]
    simp [Value.Countable, AllCountable, Value.countLimit]
  have hmatched := hmatch hcount
  have hfaced : q.outline.FacedByLists w := by
    rw [houtline, hvalue]
    exact ⟨trivial, ⟨trivial, trivial⟩, trivial⟩
  rw [hvalue] at hmatched hfaced
  exact ⟨c, q, hc, htree, hmatched, hback _ _ hmatched hfaced⟩

end Destructure
