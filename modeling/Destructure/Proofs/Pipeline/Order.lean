/-
  Destructure/Proofs/Pipeline/Order.lean
  ======================================
  **Orders that meet all requirements** — things are put in order by taking those off a
  queue that wait for nothing. Two facts carry this. A name enters the queue exactly when
  it has nothing left to wait for, so it enters once (`Sound`), however often it was
  given. And if no name was given twice, what a name waits for is what it requires and is
  not in order yet (`Tracks`). The queue runs dry before the fuel does; what is left over
  then are the names that wait for each other, or for one that there is not.
-/
import Mathlib.Data.Fintype.EquivFin
import Mathlib.Data.Fintype.Sets
import Destructure.Pipeline.Run

namespace Destructure

/-- Where no two names are alike, what is found under a name is what has it. -/
theorem find?_eq_some_of_nodup {α : Type} {name : α → String} {xs : List α}
    (hnodup : (xs.map name).Nodup) {x : α} (hx : x ∈ xs) :
    xs.find? (name · == name x) = some x := by
  induction xs with
  | nil => cases hx
  | cons y xs ih =>
    obtain ⟨hy, hnodup⟩ := List.nodup_cons.mp hnodup
    rcases List.mem_cons.mp hx with rfl | hx
    · exact List.find?_cons_of_pos (beq_self_eq_true (name x))
    · have hne : name y ≠ name x := fun heq => hy (List.mem_map.mpr ⟨x, hx, heq.symm⟩)
      rw [List.find?_cons_of_neg (by simpa using hne)]
      exact ih hnodup hx

namespace Requirement

/-! ### Names -/

def names (rs : List Requirement) : List String := rs.map (·.name)

theorem distinct_append_singleton (ns : List String) (n : String) :
    distinct (ns ++ [n]) = if n ∈ distinct ns then distinct ns else distinct ns ++ [n] := by
  rw [distinct, List.foldl_append, List.foldl_cons, List.foldl_nil, ← distinct]
  simp only [List.contains_iff_mem]

theorem mem_distinct {ns : List String} {n : String} : n ∈ distinct ns ↔ n ∈ ns := by
  induction ns using List.reverseRecOn with
  | nil => exact Iff.rfl
  | append_singleton ns m ih =>
    rw [distinct_append_singleton, List.mem_append, ← ih, List.mem_singleton]
    split
    · next hm =>
      refine ⟨Or.inl, ?_⟩
      rintro (hn | rfl)
      · exact hn
      · exact hm
    · rw [List.mem_append, List.mem_singleton]

theorem nodup_distinct (ns : List String) : (distinct ns).Nodup := by
  induction ns using List.reverseRecOn with
  | nil => exact List.nodup_nil
  | append_singleton ns m ih =>
    rw [distinct_append_singleton]
    split
    · exact ih
    · next hm =>
      rw [← List.concat_eq_append]
      exact List.Nodup.concat hm ih

/-! ### What orders mean -/

/-- One of the requirements is of `n`, and it names `m`. -/
def Requires (rs : List Requirement) (n m : String) : Prop :=
  ∃ r ∈ rs, r.name = n ∧ m ∈ r.requires

/-- Each name stands behind those that it requires. -/
def Respects (rs : List Requirement) (ns : List String) : Prop :=
  ∀ before n after, ns = before ++ n :: after → ∀ m, Requires rs n m → m ∈ before

/-- No name is given twice, what is required is given, and nothing requires itself,
    through whatever others. -/
structure Orderable (rs : List Requirement) : Prop where
  nodup : (names rs).Nodup
  given : ∀ n m, Requires rs n m → m ∈ names rs
  acyclic : ∀ n, ¬ Relation.TransGen (Requires rs) n n

section Given

variable {rs : List Requirement} {r : Requirement}

theorem name_mem (hr : r ∈ rs) : r.name ∈ names rs := List.mem_map_of_mem hr

theorem find?_of_mem (hnodup : (names rs).Nodup) (hr : r ∈ rs) :
    rs.find? (·.name == r.name) = some r :=
  find?_eq_some_of_nodup hnodup hr

end Given

/-! ### Waiting -/

namespace Progress

/-- How many requirements a name waits for, if it is known. -/
def waits? (p : Progress) (n : String) : Option Int := p.waiting.lookup n

/-- The names that are in order or in the queue. -/
def entered (p : Progress) : List String := p.ordered ++ p.queue

end Progress

theorem lookup_map_snd (w : Waiting) (f : String → Int → Int) (n : String) :
    List.lookup n (w.map fun (m, k) => (m, f m k)) = (w.lookup n).map (f n) := by
  induction w with
  | nil => rfl
  | cons e w ih =>
    obtain ⟨m, k⟩ := e
    rw [List.map_cons, List.lookup_cons, List.lookup_cons, ih]
    by_cases h : n = m
    · subst h
      simp
    · rw [beq_eq_false_iff_ne.mpr h]

theorem lookup_map_pair (ns : List String) (f : String → Int) (n : String) :
    List.lookup n (ns.map fun m => (m, f m)) = if n ∈ ns then some (f n) else none := by
  induction ns with
  | nil => rfl
  | cons m ns ih =>
    rw [List.map_cons, List.lookup_cons, ih]
    by_cases h : n = m
    · subst h
      simp
    · rw [beq_eq_false_iff_ne.mpr h]
      simp [h]

theorem waits?_settle (p : Progress) (name n : String) :
    (settle p name).waits? n = (p.waits? n).map fun k => if n = name then k - 1 else k := by
  rw [Progress.waits?, Progress.waits?, settle]
  cases hname : p.waiting.lookup name with
  | none =>
    by_cases h : n = name
    · subst h
      rw [hname]
      rfl
    · simp [h]
  | some k =>
    have hmap := lookup_map_snd p.waiting (fun m k => if m = name then k - 1 else k) n
    simpa using hmap

theorem queue_settle (p : Progress) (name : String) :
    (settle p name).queue = if p.waits? name = some 1 then p.queue ++ [name] else p.queue := by
  rw [Progress.waits?, settle]
  cases p.waiting.lookup name with
  | none => rfl
  | some k => simp only [Option.some.injEq, Int.sub_eq_zero]

theorem ordered_settle (p : Progress) (name : String) :
    (settle p name).ordered = p.ordered := by
  rw [settle]
  split <;> rfl

/-! ### One step -/

/-- The names that require a name, as often as they are given. -/
def dependents (rs : List Requirement) (name : String) : List String :=
  (rs.filter fun r => requiresOf rs r.name name).map (·.name)

/-- What is known when the first name of the queue has been put in order. -/
def Progress.next (rs : List Requirement) (p : Progress) (name : String) (queue : List String) :
    Progress :=
  (dependents rs name).foldl settle { p with queue, ordered := p.ordered ++ [name] }

section Steps

variable {rs : List Requirement} {p : Progress} {name : String} {queue : List String}

theorem advance_of_nil (h : p.queue = []) (fuel : Nat) : advance rs fuel p = p := by
  cases fuel with
  | zero => rfl
  | succ fuel => rw [advance, h]

theorem advance_of_cons (h : p.queue = name :: queue) (fuel : Nat) :
    advance rs (fuel + 1) p = advance rs fuel (p.next rs name queue) := by
  rw [advance, h, Progress.next, dependents, List.foldl_map]

/-- What each step preserves holds of the whole run. -/
theorem advance_invariant {P : Progress → Prop}
    (hstep : ∀ p name queue, P p → p.queue = name :: queue → P (p.next rs name queue))
    (fuel : Nat) (h : P p) : P (advance rs fuel p) := by
  induction fuel generalizing p with
  | zero => exact h
  | succ fuel ih =>
    cases hqueue : p.queue with
    | nil => rwa [advance_of_nil hqueue]
    | cons name queue =>
      rw [advance_of_cons hqueue]
      exact ih (hstep p name queue h hqueue)

theorem ordered_foldl_settle (ms : List String) (p : Progress) :
    (ms.foldl settle p).ordered = p.ordered := by
  induction ms generalizing p with
  | nil => rfl
  | cons m ms ih => rw [List.foldl_cons, ih, ordered_settle]

theorem waits?_foldl_settle (ms : List String) (p : Progress) (n : String) :
    (ms.foldl settle p).waits? n = (p.waits? n).map (· - (ms.count n : Int)) := by
  induction ms generalizing p with
  | nil => simp
  | cons m ms ih =>
    rw [List.foldl_cons, ih, waits?_settle, Option.map_map, List.count_cons]
    congr 1
    funext k
    by_cases h : n = m
    · subst h
      simp only [Function.comp_apply, if_true, beq_self_eq_true]
      omega
    · have hne : m ≠ n := fun heq => h heq.symm
      simp [h, hne]

/-! ### Names that enter -/

/-- Those have entered that wait for nothing any more, each once. -/
structure Sound (rs : List Requirement) (p : Progress) : Prop where
  nodup : p.entered.Nodup
  entered_iff : ∀ n, n ∈ p.entered ↔ ∃ k ≤ 0, p.waits? n = some k
  known : ∀ n k, p.waits? n = some k → n ∈ names rs

theorem entered_settle (p : Progress) (name : String) :
    (settle p name).entered =
      if p.waits? name = some 1 then p.entered ++ [name] else p.entered := by
  rw [Progress.entered, Progress.entered, ordered_settle, queue_settle]
  split
  · rw [List.append_assoc]
  · rfl

theorem mem_entered_settle {n : String} :
    n ∈ (settle p name).entered ↔ n ∈ p.entered ∨ n = name ∧ p.waits? name = some 1 := by
  rw [entered_settle]
  split
  · next hwaits => simp [hwaits]
  · next hwaits => simp [hwaits]

/-- A name enters with its last requirement, and does not enter again when the count goes
    below zero. -/
theorem Sound.settle (h : Sound rs p) (name : String) : Sound rs (settle p name) := by
  have hone : p.waits? name = some 1 → name ∉ p.entered := by
    intro hwaits hmem
    obtain ⟨k, hk, hwaits'⟩ := (h.entered_iff name).mp hmem
    rw [hwaits] at hwaits'
    cases hwaits'
    omega
  refine ⟨?_, ?_, ?_⟩
  · rw [entered_settle]
    split
    · next hwaits =>
      rw [← List.concat_eq_append]
      exact List.Nodup.concat (hone hwaits) h.nodup
    · exact h.nodup
  · intro n
    rw [mem_entered_settle, h.entered_iff, waits?_settle]
    by_cases hn : n = name
    · subst hn
      simp only [if_true, true_and, Option.map_eq_some_iff]
      constructor
      · rintro (⟨k, hk, hwaits⟩ | hwaits)
        · exact ⟨k - 1, by omega, k, hwaits, rfl⟩
        · exact ⟨0, Int.le_refl 0, 1, hwaits, rfl⟩
      · rintro ⟨_, hk, k, hwaits, rfl⟩
        have hcases : k ≤ 0 ∨ k = 1 := by omega
        rcases hcases with hk | rfl
        · exact Or.inl ⟨k, hk, hwaits⟩
        · exact Or.inr hwaits
    · simp [hn]
  · intro n k hk
    rw [waits?_settle, Option.map_eq_some_iff] at hk
    obtain ⟨k', hk', -⟩ := hk
    exact h.known n k' hk'

theorem Sound.foldl_settle (h : Sound rs p) (ms : List String) :
    Sound rs (ms.foldl Requirement.settle p) := by
  induction ms generalizing p with
  | nil => exact h
  | cons m ms ih => exact ih (h.settle m)

theorem Sound.next (h : Sound rs p) (hqueue : p.queue = name :: queue) :
    Sound rs (p.next rs name queue) := by
  apply Sound.foldl_settle
  -- the name moves from the queue to the order, and is among those that entered all along
  have hentered : Progress.entered { p with queue, ordered := p.ordered ++ [name] } = p.entered := by
    simp [Progress.entered, hqueue]
  refine ⟨?_, ?_, h.known⟩
  · rw [hentered]
    exact h.nodup
  · rw [hentered]
    exact h.entered_iff

theorem Sound.entered_subset (h : Sound rs p) : p.entered ⊆ names rs := by
  intro n hn
  obtain ⟨k, -, hk⟩ := (h.entered_iff n).mp hn
  exact h.known n k hk

theorem Sound.length_entered_le (h : Sound rs p) : p.entered.length ≤ rs.length := by
  have hle := (List.subperm_of_subset h.nodup h.entered_subset).length_le
  rwa [names, List.length_map] at hle

/-- Fuel for each name that is not in order yet is enough. -/
theorem Sound.queue_advance (h : Sound rs p) {fuel : Nat}
    (hfuel : rs.length ≤ p.ordered.length + fuel) : (advance rs fuel p).queue = [] := by
  induction fuel generalizing p with
  | zero =>
    have hle := h.length_entered_le
    rw [Progress.entered, List.length_append] at hle
    have hnone : p.queue.length = 0 := by omega
    exact List.eq_nil_of_length_eq_zero hnone
  | succ fuel ih =>
    cases hqueue : p.queue with
    | nil => rwa [advance_of_nil hqueue]
    | cons name queue =>
      rw [advance_of_cons hqueue]
      refine ih (h.next hqueue) ?_
      rw [Progress.next, ordered_foldl_settle, List.length_append, List.length_singleton]
      omega

/-- More fuel changes nothing once the queue is empty. -/
theorem advance_add {fuel : Nat} (h : (advance rs fuel p).queue = []) (more : Nat) :
    advance rs (fuel + more) p = advance rs fuel p := by
  induction fuel generalizing p with
  | zero => exact advance_of_nil h _
  | succ fuel ih =>
    cases hqueue : p.queue with
    | nil => rw [advance_of_nil hqueue, advance_of_nil hqueue]
    | cons name queue =>
      rw [advance_of_cons hqueue] at h ⊢
      rw [Nat.add_right_comm, advance_of_cons hqueue]
      exact ih h

/-! ### What is still missing -/

/-- The names that are required and not in order yet. -/
def missing (r : Requirement) (ordered : List String) : List String :=
  (distinct r.requires).filter (· ∉ ordered)

/-- Beside that, each name waits for what is missing, and what is in order respects the
    requirements. -/
structure Tracks (rs : List Requirement) (p : Progress) : Prop extends Sound rs p where
  waits : ∀ r ∈ rs, p.waits? r.name = some ((missing r p.ordered).length : Int)
  respects : Respects rs p.ordered

theorem mem_missing {r : Requirement} {ordered : List String} {m : String} :
    m ∈ missing r ordered ↔ m ∈ r.requires ∧ m ∉ ordered := by
  simp [missing, mem_distinct]

/-- Putting a name in order takes it off what is missing, where it was required. -/
theorem length_missing {r : Requirement} {ordered : List String} {m : String}
    (hm : m ∉ ordered) :
    ((missing r (ordered ++ [m])).length : Int) =
      (missing r ordered).length - if m ∈ r.requires then 1 else 0 := by
  have hnodup : (missing r ordered).Nodup := (nodup_distinct _).filter _
  have herase : missing r (ordered ++ [m]) = (missing r ordered).erase m := by
    rw [hnodup.erase_eq_filter, missing, missing, List.filter_filter]
    refine List.filter_congr fun n _ => ?_
    simp [not_or, and_comm, bne, Bool.beq_eq_decide_eq]
  rw [herase, List.length_erase]
  by_cases hrequired : m ∈ r.requires
  · have hmem : m ∈ missing r ordered := mem_missing.mpr ⟨hrequired, hm⟩
    have hpos := List.length_pos_of_mem hmem
    rw [if_pos hmem, if_pos hrequired]
    omega
  · rw [if_neg fun hmem => hrequired (mem_missing.mp hmem).1, if_neg hrequired, Int.sub_zero]

theorem count_dependents (hnodup : (names rs).Nodup) {r : Requirement} (hr : r ∈ rs) :
    (dependents rs name).count r.name = if name ∈ r.requires then 1 else 0 := by
  have hmem : r.name ∈ dependents rs name ↔ name ∈ r.requires := by
    simp only [dependents, List.mem_map, List.mem_filter]
    constructor
    · rintro ⟨s, ⟨hs, hrequires⟩, hname⟩
      rw [hname, requiresOf, find?_of_mem hnodup hr] at hrequires
      simpa using hrequires
    · intro hrequires
      refine ⟨r, ⟨hr, ?_⟩, rfl⟩
      rw [requiresOf, find?_of_mem hnodup hr]
      simpa using hrequires
  have hdependents : (dependents rs name).Nodup :=
    hnodup.sublist (List.filter_sublist.map _)
  rw [hdependents.count]
  simp only [hmem]

theorem respects_append_singleton {ordered : List String} (h : Respects rs ordered)
    (hname : ∀ m, Requires rs name m → m ∈ ordered) : Respects rs (ordered ++ [name]) := by
  intro before n after heq m hm
  rcases List.eq_nil_or_concat after with rfl | ⟨after, last, rfl⟩
  · obtain ⟨rfl, hn⟩ := List.append_inj' heq rfl
    cases hn
    exact hname m hm
  · rw [List.concat_eq_append, ← List.cons_append, ← List.append_assoc] at heq
    obtain ⟨rfl, -⟩ := List.append_inj' heq rfl
    exact h before n after rfl m hm

/-- What has entered has its requirements in order. -/
theorem Tracks.mem_ordered (h : Tracks rs p) {n m : String} (hn : n ∈ p.entered)
    (hm : Requires rs n m) : m ∈ p.ordered := by
  obtain ⟨r, hr, rfl, hm⟩ := hm
  obtain ⟨k, hk, hwaits⟩ := (h.entered_iff r.name).mp hn
  rw [h.waits r hr, Option.some.injEq] at hwaits
  have hnone : missing r p.ordered = [] := List.eq_nil_of_length_eq_zero (by omega)
  by_contra hnot
  have hmissing := mem_missing.mpr ⟨hm, hnot⟩
  rw [hnone] at hmissing
  cases hmissing

theorem Tracks.next (hnodup : (names rs).Nodup) (h : Tracks rs p)
    (hqueue : p.queue = name :: queue) : Tracks rs (p.next rs name queue) := by
  have hentered : p.entered = p.ordered ++ name :: queue := by rw [Progress.entered, hqueue]
  have hnew : name ∉ p.ordered := by
    have hdisjoint := h.nodup
    rw [hentered, List.nodup_append] at hdisjoint
    exact fun hmem => hdisjoint.2.2 name hmem name List.mem_cons_self rfl
  have hordered : (p.next rs name queue).ordered = p.ordered ++ [name] :=
    ordered_foldl_settle _ _
  refine ⟨h.toSound.next hqueue, ?_, ?_⟩
  · intro r hr
    have hwaits : (p.next rs name queue).waits? r.name =
        (p.waits? r.name).map (· - ((dependents rs name).count r.name : Int)) :=
      waits?_foldl_settle _ _ _
    rw [hwaits, h.waits r hr, hordered, length_missing hnew, count_dependents hnodup hr]
    split <;> rfl
  · rw [hordered]
    refine respects_append_singleton h.respects fun m hm => h.mem_ordered ?_ hm
    rw [hentered]
    exact List.mem_append_right _ List.mem_cons_self

end Steps

/-! ### The whole run -/

/-- How many names are required of a name, by the first requirement that is given for
    it. -/
def demand (rs : List Requirement) (n : String) : Nat :=
  ((rs.find? (·.name == n)).map fun r => (distinct r.requires).length).getD 0

/-- What is known at the beginning. -/
def initial (rs : List Requirement) : Progress :=
  ⟨initialWaiting rs, ((initialWaiting rs).filter (·.2 == 0)).map (·.1), []⟩

/-- What is known when the queue is empty. -/
def final (rs : List Requirement) : Progress := advance rs rs.length (initial rs)

variable {rs : List Requirement}

theorem order?_eq_some_iff {ns : List String} :
    order? rs = some ns ↔ (final rs).ordered = ns ∧ ns.length = rs.length := by
  have horder : order? rs = if (final rs).ordered.length = rs.length then
      some (final rs).ordered else none := rfl
  rw [horder]
  split
  · next hlength =>
    rw [Option.some.injEq]
    constructor
    · rintro rfl
      exact ⟨rfl, hlength⟩
    · exact And.left
  · next hlength =>
    constructor
    · intro h
      cases h
    · rintro ⟨rfl, h⟩
      exact absurd h hlength

theorem waits?_initial (n : String) :
    (initial rs).waits? n = if n ∈ names rs then some (demand rs n : Int) else none := by
  have hlookup := lookup_map_pair (distinct (names rs)) (fun m => (demand rs m : Int)) n
  simp only [mem_distinct] at hlookup
  exact hlookup

theorem entered_initial :
    (initial rs).entered = (distinct (names rs)).filter fun n => (demand rs n : Int) == 0 := by
  have hwaiting : initialWaiting rs =
      (distinct (names rs)).map fun n => (n, (demand rs n : Int)) := rfl
  have hentered : (initial rs).entered = ((initialWaiting rs).filter (·.2 == 0)).map (·.1) := rfl
  rw [hentered, hwaiting, List.filter_map, List.map_map]
  exact List.map_id _

theorem sound_initial (rs : List Requirement) : Sound rs (initial rs) := by
  refine ⟨?_, ?_, ?_⟩
  · rw [entered_initial]
    exact (nodup_distinct _).filter _
  · intro n
    rw [entered_initial, List.mem_filter, mem_distinct, waits?_initial, beq_iff_eq]
    constructor
    · rintro ⟨hn, hzero⟩
      exact ⟨0, Int.le_refl 0, by rw [if_pos hn, hzero]⟩
    · rintro ⟨k, hk, hwaits⟩
      split at hwaits
      · next hn =>
        cases hwaits
        exact ⟨hn, by omega⟩
      · cases hwaits
  · intro n k hwaits
    rw [waits?_initial] at hwaits
    split at hwaits
    · next hn => exact hn
    · cases hwaits

theorem tracks_initial (hnodup : (names rs).Nodup) : Tracks rs (initial rs) := by
  refine ⟨sound_initial rs, ?_, ?_⟩
  · intro r hr
    have hmissing : missing r (initial rs).ordered = distinct r.requires :=
      List.filter_eq_self.mpr fun m _ => rfl
    rw [waits?_initial, if_pos (name_mem hr), demand, find?_of_mem hnodup hr, hmissing]
    rfl
  · intro before n after heq
    have hempty : (initial rs).ordered = [] := rfl
    rw [hempty] at heq
    cases List.append_eq_nil_iff.mp heq.symm |>.2

theorem sound_final (rs : List Requirement) : Sound rs (final rs) :=
  advance_invariant (fun _ _ _ h hqueue => h.next hqueue) _ (sound_initial rs)

theorem tracks_final (hnodup : (names rs).Nodup) : Tracks rs (final rs) :=
  advance_invariant (fun _ _ _ h hqueue => h.next hnodup hqueue) _ (tracks_initial hnodup)

theorem queue_final (rs : List Requirement) : (final rs).queue = [] :=
  (sound_initial rs).queue_advance (Nat.le_add_left _ _)

theorem entered_final (rs : List Requirement) : (final rs).entered = (final rs).ordered := by
  rw [Progress.entered, queue_final, List.append_nil]

/-- An order has each given name once. -/
theorem perm_names_of_order? {ns : List String} (h : order? rs = some ns) : ns.Perm (names rs) := by
  obtain ⟨rfl, hlength⟩ := order?_eq_some_iff.mp h
  have hsound := sound_final rs
  have hnodup := hsound.nodup
  have hsubset := hsound.entered_subset
  rw [entered_final] at hnodup hsubset
  refine (List.subperm_of_subset hnodup hsubset).perm_of_length_le ?_
  rw [names, List.length_map, hlength]

theorem nodup_of_order? {ns : List String} (h : order? rs = some ns) : ns.Nodup := by
  obtain ⟨rfl, -⟩ := order?_eq_some_iff.mp h
  have hnodup := (sound_final rs).nodup
  rwa [entered_final] at hnodup

theorem respects_of_order? {ns : List String} (h : order? rs = some ns) : Respects rs ns := by
  have hnodup := (perm_names_of_order? h).nodup_iff.mp (nodup_of_order? h)
  obtain ⟨rfl, -⟩ := order?_eq_some_iff.mp h
  exact (tracks_final hnodup).respects

/-! ### When there is an order -/

theorem Requires.name_mem {n m : String} (h : Requires rs n m) : n ∈ names rs := by
  obtain ⟨r, hr, rfl, -⟩ := h
  exact Requirement.name_mem hr

/-- In an order that respects the requirements, requiring goes strictly to the front. -/
theorem idxOf_lt_of_transGen {ns : List String} (hnodup : ns.Nodup) (h : Respects rs ns)
    (hnames : names rs ⊆ ns) {n m : String} (hnm : Relation.TransGen (Requires rs) n m) :
    ns.idxOf m < ns.idxOf n := by
  have hstep : ∀ {n m}, Requires rs n m → ns.idxOf m < ns.idxOf n := by
    intro n m hnm
    obtain ⟨before, after, rfl⟩ := List.append_of_mem (hnames hnm.name_mem)
    have hm := h before n after rfl m hnm
    have hn : n ∉ before := fun hn =>
      (List.nodup_append.mp hnodup).2.2 n hn n List.mem_cons_self rfl
    rw [List.idxOf_append_of_mem hm, List.idxOf_append_of_notMem hn]
    exact Nat.lt_of_lt_of_le (List.idxOf_lt_length_of_mem hm) (Nat.le_add_right _ _)
  induction hnm with
  | single hnm => exact hstep hnm
  | tail _ hlast ih => exact Nat.lt_trans (hstep hlast) ih

theorem orderable_of_order? {ns : List String} (h : order? rs = some ns) : Orderable rs := by
  have hperm := perm_names_of_order? h
  have hnodup := nodup_of_order? h
  have hrespects := respects_of_order? h
  have hsubset : names rs ⊆ ns := hperm.symm.subset
  refine ⟨hperm.nodup_iff.mp hnodup, ?_, ?_⟩
  · intro n m hnm
    obtain ⟨before, after, rfl⟩ := List.append_of_mem (hsubset hnm.name_mem)
    exact hperm.subset (List.mem_append_left _ (hrespects before n after rfl m hnm))
  · intro n hcycle
    exact Nat.lt_irrefl _ (idxOf_lt_of_transGen hnodup hrespects hsubset hcycle)

/-- Without circles the given names can be gone through from what is required to what
    requires it. -/
theorem Orderable.wellFounded (h : Orderable rs) :
    WellFounded fun m n : { n // n ∈ names rs } => Relation.TransGen (Requires rs) n.1 m.1 := by
  have htrans : IsTrans { n // n ∈ names rs }
      (fun m n => Relation.TransGen (Requires rs) n.1 m.1) :=
    ⟨fun _ _ _ hba hcb => hcb.trans hba⟩
  have hirrefl : Std.Irrefl
      (fun m n : { n // n ∈ names rs } => Relation.TransGen (Requires rs) n.1 m.1) :=
    ⟨fun n => h.acyclic n.1⟩
  exact Finite.wellFounded_of_trans_of_irrefl _

/-- Then no name is left over. -/
theorem Orderable.mem_final (h : Orderable rs) {n : String} (hn : n ∈ names rs) :
    n ∈ (final rs).ordered := by
  have hall : ∀ n : { n // n ∈ names rs }, n.1 ∈ (final rs).ordered := by
    intro n
    induction n using h.wellFounded.induction with
    | _ n ih =>
      obtain ⟨r, hr, hname⟩ := List.mem_map.mp n.2
      have hrequired : ∀ m ∈ r.requires, m ∈ (final rs).ordered := by
        intro m hm
        have hnm : Requires rs n.1 m := ⟨r, hr, hname, hm⟩
        exact ih ⟨m, h.given n.1 m hnm⟩ (.single hnm)
      have hnone : missing r (final rs).ordered = [] := by
        rw [List.eq_nil_iff_forall_not_mem]
        intro m hm
        obtain ⟨hm, hnot⟩ := mem_missing.mp hm
        exact hnot (hrequired m hm)
      have hwaits := (tracks_final h.nodup).waits r hr
      rw [hnone] at hwaits
      rw [← hname, ← entered_final, (sound_final rs).entered_iff]
      exact ⟨0, Int.le_refl 0, hwaits⟩
  exact hall ⟨n, hn⟩

theorem exists_order?_iff : (∃ ns, order? rs = some ns) ↔ Orderable rs := by
  constructor
  · rintro ⟨ns, h⟩
    exact orderable_of_order? h
  · intro h
    refine ⟨_, order?_eq_some_iff.mpr ⟨rfl, ?_⟩⟩
    have hsubset : names rs ⊆ (final rs).ordered := fun n hn => h.mem_final hn
    have hle := (List.subperm_of_subset h.nodup hsubset).length_le
    have hge := (sound_final rs).length_entered_le
    rw [names, List.length_map] at hle
    rw [entered_final] at hge
    exact Nat.le_antisymm hge hle

/-! ### Pipelines -/

section Pipelines

variable {α β ε : Type} {ps : List (Pass α β ε)}

/-- The passes that an order names are those that were given. -/
theorem exists_perm_of_order? {ns : List String}
    (h : order? (Pass.requirements ps) = some ns) (circular : ε) :
    ∃ qs, qs.Perm ps ∧ qs.map (·.name) = ns ∧
      ∀ x, Pass.runAll circular ps x = Pass.runInOrder qs x := by
  have hnames : names (Pass.requirements ps) = ps.map (·.name) := List.map_map
  have hperm := perm_names_of_order? h
  have hnodup := (perm_names_of_order? h).nodup_iff.mp (nodup_of_order? h)
  rw [hnames] at hperm hnodup
  have hfound : ∀ p ∈ ps, ps.find? (·.name == p.name) = some p :=
    fun p hp => find?_eq_some_of_nodup hnodup hp
  refine ⟨ns.filterMap fun n => ps.find? (·.name == n), ?_, ?_, ?_⟩
  · have hself : (ps.map (·.name)).filterMap (fun n => ps.find? (·.name == n)) = ps := by
      rw [List.filterMap_map]
      exact (List.filterMap_congr hfound).trans List.filterMap_some
    have hpasses := hperm.filterMap fun n => ps.find? (·.name == n)
    rwa [hself] at hpasses
  · rw [List.map_filterMap]
    have hname : ∀ n ∈ ns, (ps.find? (·.name == n)).map (·.name) = some n := by
      intro n hn
      obtain ⟨p, hp, rfl⟩ := List.mem_map.mp (hperm.subset hn)
      rw [hfound p hp, Option.map_some]
    rw [List.filterMap_congr hname, List.filterMap_some]
  · intro x
    rw [Pass.runAll, h]

end Pipelines

/-- The names are gone through until the queue is empty, which more fuel would not change.
    An order has each given name once, behind all that it requires, and there is one exactly
    if no name is given twice, what is required is given, and there is no circle. A pipeline
    runs its passes in that order, or none of them where there is no order. -/
theorem order_meets_requirements (rs : List Requirement) :
    (∀ fuel, rs.length ≤ fuel → advance rs fuel (initial rs) = final rs) ∧
    (final rs).queue = [] ∧
    (∀ ns, order? rs = some ns → ns.Perm (names rs) ∧ Respects rs ns) ∧
    ((∃ ns, order? rs = some ns) ↔ Orderable rs) ∧
    ∀ (α β ε : Type) (circular : ε) (ps : List (Pass α β ε)), Pass.requirements ps = rs →
      (∀ ns, order? rs = some ns → ∃ qs, qs.Perm ps ∧ qs.map (·.name) = ns ∧
        ∀ x, Pass.runAll circular ps x = Pass.runInOrder qs x) ∧
      (order? rs = none → ∀ x w, (Pass.runAll circular ps x).run.run w = (.error circular, w)) := by
  refine ⟨?_, queue_final rs, ?_, exists_order?_iff, ?_⟩
  · intro fuel hfuel
    obtain ⟨more, rfl⟩ := Nat.exists_eq_add_of_le hfuel
    exact advance_add (queue_final rs) more
  · exact fun ns h => ⟨perm_names_of_order? h, respects_of_order? h⟩
  · rintro α β ε circular ps rfl
    refine ⟨fun ns h => exists_perm_of_order? h circular, fun h x w => ?_⟩
    rw [Pass.runAll, h]
    rfl

/-- Four names of which the last is required by all others. There is no order any more if
    it is given twice, although its requirements could still be met. -/
theorem order_meets_requirements_diamond :
    let rs : List Requirement :=
      [⟨"d", ["b", "c", "b"]⟩, ⟨"c", ["a"]⟩, ⟨"b", ["a"]⟩, ⟨"a", []⟩]
    Orderable rs ∧ Respects rs ["a", "c", "b", "d"] ∧ ¬ Orderable (⟨"a", []⟩ :: rs) := by
  intro rs
  have horder : order? rs = some ["a", "c", "b", "d"] := by decide
  have hnone : order? (⟨"a", []⟩ :: rs) = none := by decide
  obtain ⟨-, -, hmeets, horderable, -⟩ := order_meets_requirements rs
  obtain ⟨-, -, -, hnot, -⟩ := order_meets_requirements (⟨"a", []⟩ :: rs)
  refine ⟨horderable.mp ⟨_, horder⟩, (hmeets _ horder).2, ?_⟩
  intro h
  obtain ⟨ns, hns⟩ := hnot.mpr h
  rw [hnone] at hns
  cases hns

end Requirement

end Destructure
