/-
  Destructure/Proofs/Compile/Guard.lean
  =====================================
  **What the check of a pattern guards** — the stages behind the check fail over a
  pattern exactly where the check has something to report. A followed splat has no
  matcher. A name that is bound twice has one, which takes some value, but cannot
  capture any that it takes.
-/
import Mathlib
import Destructure.Proofs.Compile.Rendering
import Destructure.Proofs.Matcher.Substitution
import Destructure.Proofs.Pattern.Size

namespace Destructure

/-! ### Patterns without a matcher -/

/-- There is no matcher exactly if a followed splat is reported. -/
theorem toMatcher_eq_error_iff (source : String) (p : Pattern Literal) :
    p.toMatcher source = .error strayedSplat ↔ ∃ s, .splatNotLast s ∈ p.violations := by
  rw [p.exists_splatNotLast_iff]
  rcases p.lowers source with ⟨⟨m, hm⟩, hnone⟩ | ⟨herror, hsome⟩
  · rw [hm]
    constructor
    · intro h
      cases h
    · rintro ⟨s, hs⟩
      exact absurd hs (hnone s)
  · exact ⟨fun _ => hsome, fun _ => herror⟩

/-! ### Values that are taken -/

/-- Every literal of a pattern that is read accepts its own value. -/
theorem acceptable_of_parse {source : String} {p : Pattern Literal}
    (hp : Pattern.parse source = .ok p) : Acceptable p.outline.literals := by
  obtain ⟨t, hrenders, hvalue⟩ := (Pattern.parse_eq_ok_iff source p.outline).mp ⟨p, hp, rfl⟩
  intro l hl
  exact Literal.accepts_toValue (hrenders.1.equals_self hvalue l hl)

theorem size_le_of_parse {source : String} {p : Pattern Literal}
    (hp : Pattern.parse source = .ok p) : p.outline.size ≤ source.length := by
  obtain ⟨t, hrenders, hvalue⟩ := (Pattern.parse_eq_ok_iff source p.outline).mp ⟨p, hp, rfl⟩
  exact Outline.size_le_length hrenders.1 hrenders.2 hvalue

/-- The empty list for each of some names. -/
def emptied (ns : List Name) : Bindings := ns.map fun n => (n.text, .list [])

theorem lookup_emptied {ns : List Name} {s : String} {x : Value}
    (h : (emptied ns).lookup s = some x) : x = .list [] := by
  obtain ⟨before, after, hsplit, -⟩ := List.lookup_eq_some_iff.mp h
  have hmem : (s, x) ∈ emptied ns := by simp [hsplit]
  obtain ⟨n, -, hn⟩ := List.mem_map.mp hmem
  cases hn
  rfl

theorem lookup_emptied_of_mem {ns : List Name} {n : Name} (hn : n ∈ ns) :
    (emptied ns).lookup n.text = some (.list []) := by
  have hsome : ((emptied ns).lookup n.text).isSome = true := by
    rw [List.lookup_isSome_iff]
    exact ⟨_, List.mem_map_of_mem hn, beq_self_eq_true _⟩
  obtain ⟨x, hx⟩ := Option.isSome_iff_exists.mp hsome
  rw [hx, lookup_emptied hx]

/-- With the empty list for every name, a pattern that is read becomes a value that its
    matcher takes. -/
theorem exists_taken {source : String} {p : Pattern Literal} {m : Matcher}
    (hp : Pattern.parse source = .ok p) (hm : p.toMatcher source = .ok m)
    (hlength : source.length ≤ Value.countLimit) :
    ∃ v : Value, v.WellFormed ∧ m.definedAt v = .ok true := by
  have hnames : Assigned (emptied p.identifiers) p.identifiers :=
    fun n hn => ⟨_, lookup_emptied_of_mem hn⟩
  have hsplats : Spliceable (emptied p.identifiers) p.splats := by
    intro s hs n hn
    obtain ⟨k, hk, rfl⟩ := Splat.mem_identifiers hn
    exact ⟨[], lookup_emptied_of_mem (p.identifiers_of_splats s hs k hk)⟩
  obtain ⟨w, hw⟩ := p.exists_substitute hnames hsplats
  have hsize := (size_le_of_parse hp).trans hlength
  obtain ⟨hwell, hcount⟩ := p.outline.countable_substitute (fun _ _ => lookup_emptied) hw hsize
  obtain ⟨bs, ⟨hdefined, -⟩, -⟩ := p.agrees_substitute hm (acceptable_of_parse hp) hw hcount
  exact ⟨w, hwell, hdefined⟩

/-! ### Bindings of values that are taken -/

section Taken

variable {source : String} {p : Pattern Literal} {m : Matcher} {v : Value}

/-- Where a name is repeated, every capture fails over one that is found to be. -/
theorem conflict_of_repeatedName (hm : p.toMatcher source = .ok m)
    (hrepeated : ∃ n first, .repeatedName n first ∈ p.violations)
    (hdefined : m.definedAt v = .ok true) :
    ∃ n first, .repeatedName n first ∈ p.violations ∧
      m.bindings v = .error (.conflict n.text none) := by
  have hnames := p.names_toMatcher hm
  rcases m.captures v hdefined with ⟨-, -, -, hnodup⟩ | ⟨s, hconflict, hduplicate⟩
  · rw [hnames] at hnodup
    exact absurd hnodup (p.exists_repeatedName_iff.mp hrepeated)
  · rw [hnames] at hduplicate
    obtain ⟨n, first, hmem, rfl⟩ := p.exists_repeatedName_of_duplicate hduplicate
    exact ⟨n, first, hmem, hconflict⟩

theorem bindings_of_no_repeatedName (hm : p.toMatcher source = .ok m)
    (hdiffer : ¬ ∃ n first, .repeatedName n first ∈ p.violations)
    (hdefined : m.definedAt v = .ok true) : ∃ bs, m.bindings v = .ok bs := by
  have hnodup : m.names.Nodup := by
    rw [p.names_toMatcher hm]
    by_contra hnot
    exact hdiffer (p.exists_repeatedName_iff.mpr hnot)
  exact Matcher.exists_bindings hnodup hdefined

end Taken

/-! ### Reports -/

/-- Some diagnostic has the code. -/
def Reported (ds : List Diagnostic) (code : String) : Prop := ∃ d ∈ ds, d.code = some code

/-- Some diagnostic says that the name is repeated. -/
def ReportedRepeated (ds : List Diagnostic) (name : String) : Prop :=
  ∃ d ∈ ds, d.code = some "E0102" ∧
    d.message = "identifier `" ++ name ++ "` is bound more than once in the same pattern"

section Reports

variable (source sourceName : String) (vs : List Violation)

theorem reported_splatNotLast_iff :
    Reported (vs.map (Violation.diagnostic source sourceName)) "E0101" ↔
      ∃ s, .splatNotLast s ∈ vs := by
  constructor
  · rintro ⟨d, hd, hcode⟩
    obtain ⟨v, hv, rfl⟩ := List.mem_map.mp hd
    cases v with
    | splatNotLast s => exact ⟨s, hv⟩
    | repeatedName n first => simp [Violation.diagnostic] at hcode
  · rintro ⟨s, hs⟩
    exact ⟨_, List.mem_map_of_mem hs, rfl⟩

theorem reported_repeatedName_iff :
    Reported (vs.map (Violation.diagnostic source sourceName)) "E0102" ↔
      ∃ n first, .repeatedName n first ∈ vs := by
  constructor
  · rintro ⟨d, hd, hcode⟩
    obtain ⟨v, hv, rfl⟩ := List.mem_map.mp hd
    cases v with
    | splatNotLast s => simp [Violation.diagnostic] at hcode
    | repeatedName n first => exact ⟨n, first, hv⟩
  · rintro ⟨n, first, hs⟩
    exact ⟨_, List.mem_map_of_mem hs, rfl⟩

variable {vs} in
theorem reportedRepeated_of_mem {n first : Name} (h : .repeatedName n first ∈ vs) :
    ReportedRepeated (vs.map (Violation.diagnostic source sourceName)) n.text :=
  ⟨_, List.mem_map_of_mem h, rfl, rfl⟩

end Reports

/-- The check reports just what the stages behind it would fail over. There is no
    matcher exactly if E0101 is reported. If it is not, the matcher takes some value,
    for a text of a length that a text can have; with E0102, every capture of a value
    that is taken fails over a name that is reported, and without it none fails. -/
theorem check_guards_lowering (source : String) (p : Pattern Literal)
    (hp : Pattern.parse source = .ok p) (w : Workspace (List String)) :
    ∃ ds w', ((validationPass source).run (.tree p)).run.run w = (.ok (.tree p), w') ∧
      w'.report.diagnostics = w.report.diagnostics ++ ds ∧
      (p.toMatcher source = .error strayedSplat ↔ Reported ds "E0101") ∧
      (¬ Reported ds "E0101" → ∃ m, p.toMatcher source = .ok m ∧
        (source.length ≤ Value.countLimit →
          ∃ v : Value, v.WellFormed ∧ m.definedAt v = .ok true) ∧
        ∀ v, m.definedAt v = .ok true →
          (Reported ds "E0102" → ∃ name, m.bindings v = .error (.conflict name none) ∧
            ReportedRepeated ds name) ∧
          (¬ Reported ds "E0102" → ∃ bs, m.bindings v = .ok bs)) := by
  refine ⟨_, _, validationPass_run source p w, rfl, ?_, ?_⟩
  · rw [reported_splatNotLast_iff]
    exact toMatcher_eq_error_iff source p
  · intro hlast
    rw [reported_splatNotLast_iff] at hlast
    obtain ⟨m, hm⟩ := exists_toMatcher_of_no_splatNotLast source hlast
    refine ⟨m, hm, exists_taken hp hm, ?_⟩
    intro v hdefined
    rw [reported_repeatedName_iff]
    constructor
    · intro hrepeated
      obtain ⟨n, first, hmem, hconflict⟩ := conflict_of_repeatedName hm hrepeated hdefined
      exact ⟨n.text, hconflict, reportedRepeated_of_mem source w.report.sourceName hmem⟩
    · intro hdiffer
      exact bindings_of_no_repeatedName hm hdiffer hdefined

/-- A name that a nested array binds again: there is a value that is taken, and its
    capture fails. -/
theorem check_guards_lowering_nested :
    ∃ p m, Pattern.parse "[a, [1, a]]" = .ok p ∧ p.toMatcher "[a, [1, a]]" = .ok m ∧
      ∃ v name, m.definedAt v = .ok true ∧ m.bindings v = .error (.conflict name none) := by
  have hread : ∃ p n first, Pattern.parse "[a, [1, a]]" = .ok p ∧
      p.violations = [.repeatedName n first] := ⟨_, _, _, by cbv, rfl⟩
  obtain ⟨p, n, first, hp, hviolations⟩ := hread
  obtain ⟨ds, w', hrun, hds, -, hguards⟩ := check_guards_lowering _ p hp (.empty "<pattern>")
  rw [validationPass_run, hviolations] at hrun
  cases hrun
  cases hds
  have hlast : ¬ Reported [(Violation.repeatedName n first).diagnostic "[a, [1, a]]" "<pattern>"]
      "E0101" := by
    simp [Reported, Violation.diagnostic]
  obtain ⟨m, hm, hexists, hbindings⟩ := hguards hlast
  obtain ⟨v, -, hdefined⟩ := hexists (by decide)
  obtain ⟨name, hconflict, -⟩ := (hbindings v hdefined).1 ⟨_, List.mem_singleton.mpr rfl, rfl⟩
  exact ⟨p, m, hp, hm, v, name, hdefined, hconflict⟩

end Destructure
