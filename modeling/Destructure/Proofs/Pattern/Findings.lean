/-
  Destructure/Proofs/Pattern/Findings.lean
  ========================================
  **What the check of a pattern finds** — the breaches said by position in the tree
  and not by the walk that meets them. `Pattern.Breaks` is that second side: a splat
  breaks a rule where another item of its array follows it, a name where it stands
  among the names behind another of the same text. The check finds exactly these
  (`Pattern.mem_violations_iff`), at the offsets at which the walk comes upon them.
-/
import Mathlib.Data.List.Duplicate
import Mathlib.Data.List.Induction
import Destructure.Proofs.Pattern.Outline
import Destructure.Proofs.Pattern.Walk

namespace Destructure

/-! ### Breaches by position -/

def Violation.offset : Violation → Nat
  | splatNotLast s => s.extent.start
  | repeatedName n _ => n.extent.start

/-- The first of some names with the text of a name. -/
def firstNamed? (n : Name) (ns : List Name) : Option Name := ns.find? (·.text == n.text)

/-- A breach of a rule by a pattern: a splat that another item of its array follows,
    or a name with the first name of the same text among those before it. -/
inductive Pattern.Breaks {α : Type} (p : Pattern α) : Violation → Prop
  | splatNotLast {s : Splat} {is : List (Item α)} :
      p.Holds is → Followed s is → Breaks p (.splatNotLast s)
  | repeatedName {n first : Name} {before after : List Name} :
      p.identifiers = before ++ n :: after → firstNamed? n before = some first →
      Breaks p (.repeatedName n first)

/-! ### The fold over sightings -/

namespace Findings

/-- The breach that a sighting is, in view of what has been found before. -/
def violation? (f : Findings) : Sighting → Option Violation
  | .strayed s => some (.splatNotLast s)
  | .bound n => (firstNamed? n f.names).map (.repeatedName n)

theorem violations_meet (f : Findings) (x : Sighting) :
    (f.meet x).violations = f.violations ++ (f.violation? x).toList := by
  cases x with
  | strayed s => rfl
  | bound n =>
    simp only [meet, bind, violation?, firstNamed?]
    cases h : f.names.find? (·.text == n.text) with
    | none => simp
    | some first => rfl

/-- A text is found among the names of the findings if it is among those bound. -/
theorem firstNamed?_foldl (ss : List Sighting) (f : Findings) (n : Name) :
    firstNamed? n (ss.foldl meet f).names =
      firstNamed? n (f.names ++ ss.filterMap Sighting.name?) := by
  induction ss generalizing f with
  | nil => simp
  | cons x ss ih =>
    rw [List.foldl_cons, ih]
    cases x with
    | strayed s => rfl
    | bound m =>
      simp only [meet, bind, firstNamed?, List.filterMap_cons, Sighting.name?]
      cases hm : f.names.find? (·.text == m.text) with
      | none => simp
      | some first =>
        -- `m` is not kept; a name of its text has been found before it
        simp only [breach, List.find?_append, List.find?_cons]
        cases hn : f.names.find? (·.text == n.text) with
        | some other => rfl
        | none =>
          have hne : ¬ (m.text == n.text) = true := by
            intro heq
            rw [beq_iff_eq] at heq
            rw [heq, hn] at hm
            cases hm
          simp only [hne]

/-- The breaches found are those that were known and those that the sightings are. -/
theorem mem_violations_foldl (ss : List Sighting) (f : Findings) (v : Violation) :
    v ∈ (ss.foldl meet f).violations ↔ v ∈ f.violations ∨
      ∃ before x after, ss = before ++ x :: after ∧
        (before.foldl meet f).violation? x = some v := by
  induction ss generalizing f with
  | nil => simp
  | cons y ss ih =>
    rw [List.foldl_cons, ih, violations_meet, List.mem_append, Option.mem_toList, or_assoc]
    refine or_congr_right ?_
    constructor
    · rintro (h | ⟨before, x, after, rfl, h⟩)
      · exact ⟨[], y, ss, rfl, h⟩
      · exact ⟨y :: before, x, after, rfl, h⟩
    · rintro ⟨before, x, after, hss, h⟩
      cases before with
      | nil =>
        simp only [List.nil_append, List.cons.injEq] at hss
        rw [hss.1]
        exact Or.inl h
      | cons z before =>
        simp only [List.cons_append, List.cons.injEq] at hss
        obtain ⟨rfl, rfl⟩ := hss
        exact Or.inr ⟨before, x, after, rfl, h⟩

/-- Where no text is bound twice, every bound name is kept. -/
theorem names_foldl (ss : List Sighting) (f : Findings)
    (h : ((f.names ++ ss.filterMap Sighting.name?).map Name.text).Nodup) :
    (ss.foldl meet f).names = f.names ++ ss.filterMap Sighting.name? := by
  induction ss generalizing f with
  | nil => simp
  | cons x ss ih =>
    rw [List.foldl_cons]
    cases x with
    | strayed s => exact ih (f.meet (.strayed s)) h
    | bound n =>
      have hnone : f.names.find? (·.text == n.text) = Option.none := by
        rw [List.find?_eq_none]
        intro m hm heq
        rw [beq_iff_eq] at heq
        rw [List.map_append, List.nodup_append] at h
        refine h.2.2 m.text (List.mem_map_of_mem hm) n.text ?_ heq
        simp [Sighting.name?]
      have hmeet : (f.meet (.bound n)).names = f.names ++ [n] := by
        simp only [meet, bind, hnone]
      have hsplit : f.names ++ (Sighting.bound n :: ss).filterMap Sighting.name? =
          (f.meet (.bound n)).names ++ ss.filterMap Sighting.name? := by
        simp [hmeet, Sighting.name?]
      rw [hsplit] at h ⊢
      exact ih _ h

end Findings

/-! ### Names without repetitions -/

theorem firstNamed?_eq_none_iff (n : Name) (ns : List Name) :
    firstNamed? n ns = none ↔ n.text ∉ ns.map Name.text := by
  rw [firstNamed?, List.find?_eq_none, List.mem_map]
  constructor
  · rintro h ⟨m, hm, heq⟩
    exact h m hm (beq_iff_eq.mpr heq)
  · intro h m hm heq
    exact h ⟨m, hm, beq_iff_eq.mp heq⟩

/-- Texts are distinct exactly if no name has a namesake before it. -/
theorem nodup_text_iff (ns : List Name) :
    (ns.map Name.text).Nodup ↔
      ∀ before n after, ns = before ++ n :: after → firstNamed? n before = none := by
  induction ns using List.reverseRecOn with
  | nil => simp
  | append_singleton ns m ih =>
    rw [List.map_append, List.map_singleton, List.nodup_append, ih]
    constructor
    · rintro ⟨hinit, -, hlast⟩ before n after heq
      -- `n` is the last name, or stands among those before it
      rcases List.eq_nil_or_concat after with rfl | ⟨init, k, rfl⟩
      · obtain ⟨rfl, hm⟩ := List.append_inj' heq rfl
        simp only [List.cons.injEq, and_true] at hm
        subst hm
        rw [firstNamed?_eq_none_iff]
        intro hmem
        exact hlast _ hmem _ (List.mem_singleton.mpr rfl) rfl
      · have hassoc : before ++ n :: init.concat k = (before ++ n :: init) ++ [k] := by simp
        rw [hassoc] at heq
        exact hinit before n init (List.append_inj' heq rfl).1
    · intro h
      refine ⟨?_, by simp, ?_⟩
      · intro before n after heq
        exact h before n (after ++ [m]) (by simp [heq])
      · intro s hs t ht hst
        rw [List.mem_singleton] at ht
        have hnone := (firstNamed?_eq_none_iff m ns).mp (h ns m [] rfl)
        exact hnone (by rwa [← ht, ← hst])

/-! ### What is found in a pattern -/

section Patterns

variable {α : Type}

theorem Pattern.findings_eq_foldl (p : Pattern α) :
    p.findings = p.sightings.foldl Findings.meet .none :=
  p.check_eq_foldl .none

/-- The check finds the breaches of a pattern and nothing else. -/
theorem Pattern.mem_violations_iff (p : Pattern α) (v : Violation) :
    v ∈ p.violations ↔ p.Breaks v := by
  rw [Pattern.violations, p.findings_eq_foldl, Findings.mem_violations_foldl]
  constructor
  · rintro (h | ⟨before, x, after, hp, h⟩)
    · simp [Findings.none] at h
    · cases x with
      | strayed s =>
        simp only [Findings.violation?, Option.some.injEq] at h
        subst h
        have hmem : Sighting.strayed s ∈ p.sightings := by simp [hp]
        obtain ⟨is, hholds, hfollowed⟩ := (p.strayed_mem_sightings s).mp hmem
        exact .splatNotLast hholds hfollowed
      | bound n =>
        simp only [Findings.violation?, Option.map_eq_some_iff] at h
        obtain ⟨first, hfirst, rfl⟩ := h
        rw [Findings.firstNamed?_foldl] at hfirst
        have hnames : p.identifiers =
            before.filterMap Sighting.name? ++ n :: after.filterMap Sighting.name? := by
          rw [← p.filterMap_name?_sightings, hp, List.filterMap_append, List.filterMap_cons]
          rfl
        exact .repeatedName hnames hfirst
  · intro h
    refine Or.inr ?_
    cases h with
    | @splatNotLast s is hholds hfollowed =>
      have hmem := (p.strayed_mem_sightings s).mpr ⟨is, hholds, hfollowed⟩
      obtain ⟨before, after, hp⟩ := List.append_of_mem hmem
      exact ⟨before, .strayed s, after, hp, rfl⟩
    | @repeatedName n first before after hnames hfirst =>
      -- the split of the names is cut out of a split of the sightings
      rw [← p.filterMap_name?_sightings, List.filterMap_eq_append_iff] at hnames
      obtain ⟨ss, ts, hp, hbefore, hrest⟩ := hnames
      rw [List.filterMap_eq_cons_iff] at hrest
      obtain ⟨us, x, ws, rfl, hus, hx, -⟩ := hrest
      have hx : x = .bound n := by
        cases x with
        | strayed s => cases hx
        | bound m => simpa [Sighting.name?] using hx
      subst hx
      refine ⟨ss ++ us, .bound n, ws, by simp [hp], ?_⟩
      have hnone : us.filterMap Sighting.name? = [] := List.filterMap_eq_nil_iff.mpr hus
      rw [Findings.violation?, Findings.firstNamed?_foldl, List.filterMap_append, hbefore, hnone,
        List.append_nil, Findings.none, List.nil_append, hfirst]
      rfl

/-- A pattern breaks no rule exactly if no splat is followed in any array and no two
    names have one text. -/
theorem Pattern.violations_eq_nil_iff (p : Pattern α) :
    p.violations = [] ↔
      (∀ is, p.Holds is → ∀ s, ¬ Followed s is) ∧ (p.identifiers.map Name.text).Nodup := by
  rw [nodup_text_iff, List.eq_nil_iff_forall_not_mem]
  simp only [p.mem_violations_iff]
  constructor
  · intro h
    refine ⟨fun is hholds s hs => h _ (.splatNotLast hholds hs), ?_⟩
    intro before n after hnames
    rw [Option.eq_none_iff_forall_not_mem]
    intro first hfirst
    exact h _ (.repeatedName hnames hfirst)
  · rintro ⟨hsplat, hname⟩ v hv
    cases hv with
    | splatNotLast hholds hs => exact hsplat _ hholds _ hs
    | repeatedName hnames hfirst =>
      rw [hname _ _ _ hnames] at hfirst
      cases hfirst

/-- Where no two names have one text, the names that a pattern binds are all its
    names. -/
theorem Pattern.names_eq_of_nodup (p : Pattern α) (h : (p.identifiers.map Name.text).Nodup) :
    p.names = p.identifiers.map Name.text := by
  have hfold := Findings.names_foldl p.sightings .none (by
    rw [p.filterMap_name?_sightings]
    exact h)
  rw [Pattern.names, p.findings_eq_foldl, hfold, p.filterMap_name?_sightings]
  rfl

/-! ### Breaches of one rule -/

theorem Pattern.exists_splatNotLast_iff (p : Pattern α) :
    (∃ s, .splatNotLast s ∈ p.violations) ↔ ∃ s, .strayed s ∈ p.sightings := by
  apply exists_congr
  intro s
  rw [p.mem_violations_iff, p.strayed_mem_sightings]
  constructor
  · intro h
    cases h with
    | splatNotLast hholds hfollowed => exact ⟨_, hholds, hfollowed⟩
  · rintro ⟨is, hholds, hfollowed⟩
    exact .splatNotLast hholds hfollowed

/-- A text that two names have is that of a name with a namesake before it. -/
theorem Pattern.exists_repeatedName_of_duplicate (p : Pattern α) {s : String}
    (h : List.Duplicate s (p.identifiers.map Name.text)) :
    ∃ n first, .repeatedName n first ∈ p.violations ∧ n.text = s := by
  rw [List.duplicate_iff_sublist, List.sublist_map_iff] at h
  obtain ⟨ns, hns, hs⟩ := h
  obtain ⟨m, ms, rfl, hm, hms⟩ := List.map_eq_cons_iff.mp hs.symm
  obtain ⟨n, ks, rfl, hn, -⟩ := List.map_eq_cons_iff.mp hms
  obtain ⟨before, after, hnames, hmem, hsublist⟩ := List.cons_sublist_iff.mp hns
  obtain ⟨between, rest, rfl⟩ := List.append_of_mem (hsublist.subset List.mem_cons_self)
  cases hfirst : firstNamed? n (before ++ between) with
  | none =>
    rw [firstNamed?_eq_none_iff] at hfirst
    refine absurd ?_ hfirst
    rw [hn, ← hm]
    exact List.mem_map_of_mem (List.mem_append_left between hmem)
  | some first =>
    rw [← List.append_assoc] at hnames
    exact ⟨n, first, (p.mem_violations_iff _).mpr (.repeatedName hnames hfirst), hn⟩

/-- Two names have one text exactly if a name is found to be repeated. -/
theorem Pattern.exists_repeatedName_iff (p : Pattern α) :
    (∃ n first, .repeatedName n first ∈ p.violations) ↔
      ¬ (p.identifiers.map Name.text).Nodup := by
  constructor
  · rintro ⟨n, first, h⟩ hnodup
    rw [p.mem_violations_iff] at h
    cases h with
    | repeatedName hnames hfirst =>
      rw [(nodup_text_iff _).mp hnodup _ _ _ hnames] at hfirst
      cases hfirst
  · intro h
    obtain ⟨s, hs⟩ := List.exists_duplicate_iff_not_nodup.mpr h
    obtain ⟨n, first, hmem, -⟩ := p.exists_repeatedName_of_duplicate hs
    exact ⟨n, first, hmem⟩

/-! ### Patterns that are equal up to their places -/

/-- A sighting taken out of its place. -/
def Sighting.unplaced : Sighting → Sighting
  | strayed s => strayed s.unplaced
  | bound n => bound ⟨nowhere, n.text⟩

theorem Splat.bound_unplaced (s : Splat) :
    s.unplaced.identifiers.map Sighting.bound =
      (s.identifiers.map Sighting.bound).map Sighting.unplaced := by
  cases s <;> rfl

theorem Item.strays_unplaced (i : Item α) : i.unplaced.strays = i.strays.map Sighting.unplaced := by
  cases i <;> rfl

mutual

/-- Taken out of its places, a pattern shows a walk the same, out of place. -/
theorem Pattern.sightings_unplaced (p : Pattern α) :
    p.unplaced.sightings = p.sightings.map Sighting.unplaced := by
  cases p with
  | literal e a => rfl
  | name n => rfl
  | empty e => rfl
  | array e es => exact es.sightings_unplaced

theorem Elements.sightings_unplaced (es : Elements α) :
    es.unplaced.sightings = es.sightings.map Sighting.unplaced := by
  cases es with
  | one e i => exact i.sightings_unplaced
  | more e i c =>
    rw [Elements.unplaced, Elements.sightings, Elements.sightings, i.strays_unplaced,
      i.sightings_unplaced, c.sightings_unplaced, List.map_append, List.map_append]

theorem Item.sightings_unplaced (i : Item α) :
    i.unplaced.sightings = i.sightings.map Sighting.unplaced := by
  cases i with
  | pattern p => exact p.sightings_unplaced
  | splat s => exact s.bound_unplaced

theorem Chain.sightings_unplaced (c : Chain α) :
    c.unplaced.sightings = c.sightings.map Sighting.unplaced := by
  cases c with
  | link e i c =>
    rw [Chain.unplaced, Chain.sightings, Chain.sightings, i.strays_unplaced,
      i.sightings_unplaced, c.sightings_unplaced, List.map_append, List.map_append]
  | last e p => exact p.sightings_unplaced
  | lastSplat e s => exact s.bound_unplaced

end

def Sighting.text? (x : Sighting) : Option String := x.name?.map Name.text

theorem Sighting.text?_unplaced (x : Sighting) : x.unplaced.text? = x.text? := by
  cases x <;> rfl

theorem Pattern.texts_eq_filterMap (p : Pattern α) :
    p.identifiers.map Name.text = p.sightings.filterMap Sighting.text? := by
  rw [← p.filterMap_name?_sightings, List.map_filterMap]
  rfl

theorem Pattern.texts_of_unplaced_eq {p q : Pattern α} (h : p.unplaced = q.unplaced) :
    p.identifiers.map Name.text = q.identifiers.map Name.text := by
  have hunplaced : ∀ r : Pattern α, r.unplaced.sightings.filterMap Sighting.text? =
      r.sightings.filterMap Sighting.text? := by
    intro r
    have htext : Sighting.text? ∘ Sighting.unplaced = Sighting.text? := funext Sighting.text?_unplaced
    rw [r.sightings_unplaced, List.filterMap_map, htext]
  rw [p.texts_eq_filterMap, q.texts_eq_filterMap, ← hunplaced p, ← hunplaced q, h]

/-- Where a pattern stands does not matter to the rules. -/
theorem Pattern.violations_eq_nil_of_unplaced_eq {p q : Pattern α} (h : p.unplaced = q.unplaced)
    (hp : p.violations = []) : q.violations = [] := by
  rw [Pattern.violations_eq_nil_iff] at hp ⊢
  refine ⟨?_, ?_⟩
  · intro is hholds s hfollowed
    have hq := (q.strayed_mem_sightings s).mpr ⟨is, hholds, hfollowed⟩
    have hmem : Sighting.strayed s.unplaced ∈ p.sightings.map Sighting.unplaced := by
      rw [← p.sightings_unplaced, h, q.sightings_unplaced]
      exact List.mem_map_of_mem hq
    obtain ⟨x, hx, hstrayed⟩ := List.mem_map.mp hmem
    cases x with
    | bound n => cases hstrayed
    | strayed t =>
      obtain ⟨js, hjs, ht⟩ := (p.strayed_mem_sightings t).mp hx
      exact hp.1 js hjs t ht
  · rw [← Pattern.texts_of_unplaced_eq h]
    exact hp.2

end Patterns

end Destructure
