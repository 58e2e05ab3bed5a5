/-
  Destructure/Proofs/Compile/Recency.lean
  =======================================
  **What the cache holds** — behind any requests the cache holds the texts that compile
  and were asked for most recently, as many as there is room for (`Follows.keys`). So
  whether a request is a hit can be told from the requests alone: by the texts asked for
  since the last request of the same text. The list of all texts by recency, `recent`, is
  the same walk over the requests without a limit, and the entries are cut off from it.
-/
import Mathlib
import Destructure.Compile.Cache
import Destructure.Proofs.Outcome

namespace Destructure

/-! ### Texts by recency -/

/-- Whether there is a compiled pattern of the text. -/
def compiles (s : String) : Bool := (compilePattern s).isOk

/-- One more request: a text that compiles becomes the most recent, any other changes
    nothing. -/
def touch (texts : List String) (s : String) : List String :=
  if compiles s then s :: texts.filter (· != s) else texts

/-- The texts among the requests that compile, each once, the most recent first. -/
def recent (requests : List String) : List String := requests.foldl touch []

theorem recent_append_singleton (requests : List String) (s : String) :
    recent (requests ++ [s]) = touch (recent requests) s := by
  rw [recent, List.foldl_append]
  rfl

theorem mem_touch {texts : List String} {s t : String} :
    t ∈ touch texts s ↔ t ∈ texts ∨ t = s ∧ compiles s = true := by
  rw [touch]
  by_cases hs : compiles s = true
  · by_cases hts : t = s <;> simp [hs, hts]
  · simp [hs]

theorem mem_recent {requests : List String} {t : String} :
    t ∈ recent requests ↔ t ∈ requests ∧ compiles t = true := by
  induction requests using List.reverseRecOn with
  | nil => simp [recent]
  | append_singleton requests s ih =>
    rw [recent_append_singleton, mem_touch, ih, List.mem_append, List.mem_singleton]
    constructor
    · rintro (⟨hmem, ht⟩ | ⟨rfl, hs⟩)
      · exact ⟨Or.inl hmem, ht⟩
      · exact ⟨Or.inr rfl, hs⟩
    · rintro ⟨hmem | rfl, ht⟩
      · exact Or.inl ⟨hmem, ht⟩
      · exact Or.inr ⟨rfl, ht⟩

theorem nodup_recent (requests : List String) : (recent requests).Nodup := by
  induction requests using List.reverseRecOn with
  | nil => exact List.nodup_nil
  | append_singleton requests s ih =>
    rw [recent_append_singleton, touch]
    split
    · rw [List.nodup_cons]
      exact ⟨by simp, ih.filter _⟩
    · exact ih

/-- Before a text stand those that were asked for since. -/
theorem recent_since {s : String} (hs : compiles s = true) (earlier since : List String)
    (hsince : s ∉ since) :
    ∃ before, recent (earlier ++ s :: since) = recent since ++ s :: before := by
  induction since using List.reverseRecOn with
  | nil =>
    refine ⟨(recent earlier).filter (· != s), ?_⟩
    rw [recent_append_singleton, touch, if_pos hs]
    rfl
  | append_singleton since t ih =>
    rw [List.mem_append, not_or, List.mem_singleton] at hsince
    obtain ⟨before, hbefore⟩ := ih hsince.1
    have hst : (s != t) = true := bne_iff_ne.mpr hsince.2
    rw [← List.cons_append, ← List.append_assoc, recent_append_singleton, hbefore,
      recent_append_singleton, touch, touch]
    by_cases ht : compiles t = true
    · refine ⟨before.filter (· != t), ?_⟩
      rw [if_pos ht, if_pos ht, List.filter_append, List.filter_cons_of_pos (p := (· != t)) hst,
        List.cons_append]
    · exact ⟨before, by rw [if_neg ht, if_neg ht]⟩

theorem length_recent (requests : List String) :
    (recent requests).length = (requests.toFinset.filter fun t => compiles t).card := by
  rw [← List.toFinset_card_of_nodup (nodup_recent requests)]
  congr 1
  ext t
  simp [mem_recent]

/-- A text is among the `n` most recent exactly if fewer than `n` others that compile
    were asked for since. -/
theorem mem_take_recent_iff {s : String} (hs : compiles s = true) {earlier since : List String}
    (hsince : s ∉ since) (n : Nat) :
    s ∈ (recent (earlier ++ s :: since)).take n ↔
      (since.toFinset.filter fun t => compiles t).card < n := by
  obtain ⟨before, hbefore⟩ := recent_since hs earlier since hsince
  have hfront : s ∉ recent since := fun h => hsince (mem_recent.mp h).1
  rw [← length_recent, hbefore, List.take_append, List.mem_append]
  have htake : s ∉ (recent since).take n := fun h => hfront (List.mem_of_mem_take h)
  by_cases hn : (recent since).length < n
  · obtain ⟨k, hk⟩ := Nat.exists_eq_add_of_lt hn
    have hroom : n - (recent since).length = k + 1 := by omega
    simp [hroom, hn]
  · have hroom : n - (recent since).length = 0 := by omega
    simp [hroom, htake, hn]

/-! ### Cutting off -/

section Cut

variable {texts : List String} {s : String}

theorem take_filter_of_not_mem_take (n : Nat) (h : s ∉ texts.take n) :
    (texts.filter (· != s)).take n = texts.take n := by
  induction texts generalizing n with
  | nil => rfl
  | cons t texts ih =>
    cases n with
    | zero => rfl
    | succ n =>
      rw [List.take_succ_cons, List.mem_cons, not_or] at h
      have hts : (t != s) = true := bne_iff_ne.mpr (Ne.symm h.1)
      rw [List.filter_cons_of_pos (p := (· != s)) hts, List.take_succ_cons, List.take_succ_cons,
        ih n h.2]

/-- What is taken away from among the first makes room for one more. -/
theorem take_filter_of_mem_take (hnodup : texts.Nodup) (n : Nat)
    (h : s ∈ texts.take (n + 1)) :
    (texts.filter (· != s)).take n = (texts.take (n + 1)).filter (· != s) := by
  induction texts generalizing n with
  | nil => cases h
  | cons t texts ih =>
    rw [List.nodup_cons] at hnodup
    rw [List.take_succ_cons, List.mem_cons] at h
    rw [List.take_succ_cons]
    by_cases hts : t = s
    · subst hts
      have hkeep : ∀ u ∈ texts, (u != t) = true := by
        intro u hu
        exact bne_iff_ne.mpr fun hut => hnodup.1 (hut ▸ hu)
      rw [List.filter_cons_of_neg (by simp), List.filter_cons_of_neg (by simp),
        List.filter_eq_self.mpr hkeep]
      exact (List.filter_eq_self.mpr fun u hu => hkeep u (List.mem_of_mem_take hu)).symm
    · have hkeep : (t != s) = true := bne_iff_ne.mpr hts
      have h := h.resolve_left (Ne.symm hts)
      cases n with
      | zero => cases h
      | succ n =>
        rw [List.filter_cons_of_pos (p := (· != s)) hkeep,
          List.filter_cons_of_pos (p := (· != s)) hkeep, List.take_succ_cons, ih hnodup.2 n h]

/-- A request of a text that compiles, seen on the texts that there is room for. -/
theorem take_touch (hs : compiles s = true) (hnodup : texts.Nodup) (n : Nat) :
    (touch texts s).take (n + 1) =
      if s ∈ texts.take (n + 1) then s :: (texts.take (n + 1)).filter (· != s)
      else (s :: texts.take (n + 1)).take (n + 1) := by
  rw [touch, if_pos hs, List.take_succ_cons]
  by_cases h : s ∈ texts.take (n + 1)
  · rw [if_pos h, take_filter_of_mem_take hnodup n h]
  · have hfewer : s ∉ texts.take n := fun hmem => h (List.take_subset_take_left _ (by omega) hmem)
    rw [if_neg h, take_filter_of_not_mem_take n hfewer, List.take_succ_cons, List.take_take,
      Nat.min_eq_left (Nat.le_succ n)]

end Cut

/-! ### One request -/

theorem compiles_of_ok {s : String} {p : CompiledPattern} (hs : compilePattern s = .ok p) :
    compiles s = true := by
  rw [compiles, hs]
  rfl

theorem compiles_of_error {s : String} {f : Failure} (hs : compilePattern s = .error f) :
    ¬ compiles s = true := by
  rw [compiles, hs]
  exact Bool.false_ne_true

namespace Cache

/-- A request finds its text held, or fails with the text, or makes a compiled pattern
    and holds it. -/
theorem request_cases (c : Cache) (s : String) :
    (∃ held, (s, held) ∈ c.entries ∧ c.request s = (.ok held,
      { c with entries := (s, held) :: c.entries.filter (·.1 != s), hits := c.hits + 1 })) ∨
    (∃ f, s ∉ c.entries.map (·.1) ∧ compilePattern s = .error f ∧
      c.request s = (.error f, { c with misses := c.misses + 1 })) ∨
    ∃ p, s ∉ c.entries.map (·.1) ∧ compilePattern s = .ok p ∧
      c.request s = (.ok ⟨c.misses, p⟩,
        { c with
          entries := ((s, ⟨c.misses, p⟩) :: c.entries).take capacity
          misses := c.misses + 1 }) := by
  cases hlookup : c.entries.lookup s with
  | some held =>
    obtain ⟨front, back, hentries, -⟩ := List.lookup_eq_some_iff.mp hlookup
    refine Or.inl ⟨held, by simp [hentries], ?_⟩
    rw [request, hlookup]
  | none =>
    have hnot : s ∉ c.entries.map (·.1) := by
      intro hmem
      obtain ⟨e, he, rfl⟩ := List.mem_map.mp hmem
      simpa using List.lookup_eq_none_iff.mp hlookup e he
    cases hs : compilePattern s with
    | error f => exact Or.inr (Or.inl ⟨f, hnot, rfl, by rw [request, hlookup, hs]⟩)
    | ok p => exact Or.inr (Or.inr ⟨p, hnot, rfl, by rw [request, hlookup, hs]⟩)

section Request

variable {c : Cache} {s : String}

/-- What is held behind a request is the answer to it, or was held before and belongs to
    another text. -/
theorem mem_entries_request {e : String × Held} (he : e ∈ (c.request s).2.entries) :
    (e.1 = s ∧ (c.request s).1 = .ok e.2) ∨ (e ∈ c.entries ∧ e.1 ≠ s) := by
  have hother : s ∉ c.entries.map (·.1) → e ∈ c.entries → e.1 ≠ s := by
    rintro hnot hmem rfl
    exact hnot (List.mem_map_of_mem hmem)
  rcases c.request_cases s with ⟨held, -, h⟩ | ⟨f, hnot, -, h⟩ | ⟨p, hnot, -, h⟩
  · rw [h] at he ⊢
    rcases List.mem_cons.mp he with rfl | he
    · exact Or.inl ⟨rfl, rfl⟩
    · obtain ⟨he, hes⟩ := List.mem_filter.mp he
      exact Or.inr ⟨he, bne_iff_ne.mp hes⟩
  · rw [h] at he
    exact Or.inr ⟨he, hother hnot he⟩
  · rw [h] at he ⊢
    rcases List.mem_cons.mp (List.mem_of_mem_take he) with rfl | he
    · exact Or.inl ⟨rfl, rfl⟩
    · exact Or.inr ⟨he, hother hnot he⟩

theorem take_capacity_touch {texts : List String} (hs : compiles s = true)
    (hnodup : texts.Nodup) :
    (touch texts s).take capacity =
      if s ∈ texts.take capacity then s :: (texts.take capacity).filter (· != s)
      else (s :: texts.take capacity).take capacity :=
  take_touch hs hnodup 511

/-- The texts that are held are as many of the most recent as there is room for, and
    stay so. -/
theorem keys_request {texts : List String} (hkeys : c.entries.map (·.1) = texts.take capacity)
    (hcompiles : ∀ t ∈ texts, compiles t = true) (hnodup : texts.Nodup) (s : String) :
    (c.request s).2.entries.map (·.1) = (touch texts s).take capacity := by
  rcases c.request_cases s with ⟨held, hheld, h⟩ | ⟨f, -, hs, h⟩ | ⟨p, hnot, hs, h⟩
  · have hmem : s ∈ texts.take capacity := by
      rw [← hkeys]
      exact List.mem_map_of_mem (f := (·.1)) hheld
    have hs := hcompiles s (List.mem_of_mem_take hmem)
    rw [h, take_capacity_touch hs hnodup, if_pos hmem, ← hkeys, List.filter_map]
    rfl
  · rw [h, touch, if_neg (compiles_of_error hs)]
    exact hkeys
  · rw [h, take_capacity_touch (compiles_of_ok hs) hnodup, if_neg (hkeys ▸ hnot), ← hkeys,
      List.map_take]
    rfl

/-- Every request is counted once. -/
theorem tally_request (c : Cache) (s : String) :
    (c.request s).2.hits + (c.request s).2.misses = c.hits + c.misses + 1 := by
  rcases c.request_cases s with ⟨held, -, h⟩ | ⟨f, -, -, h⟩ | ⟨p, -, -, h⟩
  · rw [h]
    exact Nat.add_right_comm c.hits 1 c.misses
  · rw [h]
    rfl
  · rw [h]
    rfl

/-- It is counted as a hit if the text is held. -/
theorem hits_request_iff (c : Cache) (s : String) :
    (c.request s).2.hits = c.hits + 1 ↔ s ∈ c.entries.map (·.1) := by
  rcases c.request_cases s with ⟨held, hheld, h⟩ | ⟨f, hnot, -, h⟩ | ⟨p, hnot, -, h⟩
  · rw [h]
    exact iff_of_true rfl (List.mem_map_of_mem (f := (·.1)) hheld)
  · rw [h]
    exact iff_of_false (Nat.ne_of_lt (Nat.lt_succ_self _)) hnot
  · rw [h]
    exact iff_of_false (Nat.ne_of_lt (Nat.lt_succ_self _)) hnot

theorem misses_le_request (c : Cache) (s : String) : c.misses ≤ (c.request s).2.misses := by
  rcases c.request_cases s with ⟨held, -, h⟩ | ⟨f, -, -, h⟩ | ⟨p, -, -, h⟩
  · rw [h]
  · rw [h]
    exact Nat.le_succ _
  · rw [h]
    exact Nat.le_succ _

/-- The number of what is answered is that of a miss. -/
theorem serial_lt_request (hserials : ∀ e ∈ c.entries, e.2.serial < c.misses) {held : Held}
    (hheld : (c.request s).1 = .ok held) : held.serial < (c.request s).2.misses := by
  rcases c.request_cases s with ⟨held', hmem, h⟩ | ⟨f, -, -, h⟩ | ⟨p, -, -, h⟩
  · rw [h] at hheld ⊢
    cases hheld
    exact hserials _ hmem
  · rw [h] at hheld
    cases hheld
  · rw [h] at hheld ⊢
    cases hheld
    exact Nat.lt_succ_self _

end Request

/-! ### Requests one after another -/

/-- The cache behind requests, one after another, that have started from the empty
    one. -/
def after (requests : List String) : Cache :=
  requests.foldl (fun c s => (c.request s).2) .empty

/-- What a text is answered with that is asked for behind other requests. -/
def answer (requests : List String) (s : String) : Except Failure Held :=
  ((after requests).request s).1

theorem after_append_singleton (requests : List String) (s : String) :
    after (requests ++ [s]) = ((after requests).request s).2 := by
  rw [after, List.foldl_append]
  rfl

/-- What is known of the cache behind some requests: its entries are the most recent
    texts with what was last answered to them. -/
structure Follows (c : Cache) (requests : List String) : Prop where
  keys : c.entries.map (·.1) = (recent requests).take capacity
  tally : c.hits + c.misses = requests.length
  patterns : ∀ e ∈ c.entries, compilePattern e.1 = .ok e.2.pattern
  serials : ∀ e ∈ c.entries, e.2.serial < c.misses
  origins : ∀ e ∈ c.entries, ∀ earlier since, requests = earlier ++ e.1 :: since →
    e.1 ∉ since → answer earlier e.1 = .ok e.2

theorem Follows.answer_pattern {requests : List String}
    (h : (after requests).Follows requests) (s : String) :
    (answer requests s).map (·.pattern) = compilePattern s := by
  rw [answer]
  rcases (after requests).request_cases s with
    ⟨held, hheld, hstep⟩ | ⟨f, -, hs, hstep⟩ | ⟨p, -, hs, hstep⟩
  · rw [hstep, h.patterns _ hheld]
    rfl
  · rw [hstep, hs]
    rfl
  · rw [hstep, hs]
    rfl

/-- The last request of a text is the very last one, or was there before. -/
theorem split_append_singleton {requests earlier since : List String} {s t : String}
    (h : requests ++ [s] = earlier ++ t :: since) :
    (since = [] ∧ earlier = requests ∧ t = s) ∨
      ∃ others, since = others ++ [s] ∧ requests = earlier ++ t :: others := by
  rcases List.eq_nil_or_concat since with rfl | ⟨others, u, rfl⟩
  · obtain ⟨rfl, hst⟩ := List.append_inj' h rfl
    cases hst
    exact Or.inl ⟨rfl, rfl, rfl⟩
  · rw [List.concat_eq_append, ← List.cons_append, ← List.append_assoc] at h
    obtain ⟨rfl, hsu⟩ := List.append_inj' h rfl
    cases hsu
    exact Or.inr ⟨others, List.concat_eq_append, rfl⟩

/-- One more request keeps what is known. -/
theorem Follows.request {requests : List String} (h : (after requests).Follows requests)
    (s : String) : (after (requests ++ [s])).Follows (requests ++ [s]) := by
  have hanswer := h.answer_pattern s
  rw [after_append_singleton]
  refine ⟨?_, ?_, ?_, ?_, ?_⟩
  · rw [recent_append_singleton]
    exact keys_request h.keys (fun t ht => (mem_recent.mp ht).2) (nodup_recent requests) s
  · rw [tally_request, h.tally, List.length_append]
    rfl
  · intro e he
    rcases mem_entries_request he with ⟨rfl, hheld⟩ | ⟨he, -⟩
    · rw [answer, hheld] at hanswer
      exact hanswer.symm
    · exact h.patterns e he
  · intro e he
    rcases mem_entries_request he with ⟨-, hheld⟩ | ⟨he, -⟩
    · exact serial_lt_request h.serials hheld
    · exact (h.serials e he).trans_le (misses_le_request _ s)
  · intro e he earlier since hrequests hsince
    rcases split_append_singleton hrequests with ⟨rfl, rfl, hes⟩ | ⟨others, rfl, rfl⟩
    · rcases mem_entries_request he with ⟨-, hheld⟩ | ⟨-, hne⟩
      · rw [answer, hes]
        exact hheld
      · exact absurd hes hne
    · rw [List.mem_append, not_or, List.mem_singleton] at hsince
      rcases mem_entries_request he with ⟨hes, -⟩ | ⟨he, -⟩
      · exact absurd hes hsince.2
      · exact h.origins e he earlier others rfl hsince.1

theorem follows (requests : List String) : (after requests).Follows requests := by
  induction requests using List.reverseRecOn with
  | nil =>
    refine ⟨rfl, rfl, ?_, ?_, ?_⟩
    · intro e he
      cases he
    · intro e he
      cases he
    · intro e he
      cases he
  | append_singleton requests s ih => exact ih.request s

/-! ### Hits and misses -/

/-- A request is a hit if it is counted as one. -/
def Hit (requests : List String) (s : String) : Prop :=
  (after (requests ++ [s])).hits = (after requests).hits + 1

theorem hit_iff_mem_keys {requests : List String} {s : String} :
    Hit requests s ↔ s ∈ (after requests).entries.map (·.1) := by
  rw [Hit, after_append_singleton, hits_request_iff]

theorem hit_iff_mem_take_recent {requests : List String} {s : String} :
    Hit requests s ↔ s ∈ (recent requests).take capacity := by
  rw [hit_iff_mem_keys, (follows requests).keys]

theorem size_after_le (requests : List String) : (after requests).size ≤ capacity := by
  rw [size, ← List.length_map (·.1), (follows requests).keys]
  exact List.length_take_le _ _

/-- A text that has been requested was requested last at some time. -/
theorem exists_last_request {requests : List String} {s : String} (h : s ∈ requests) :
    ∃ earlier since, requests = earlier ++ s :: since ∧ s ∉ since := by
  obtain ⟨since, earlier, hsplit, hsince⟩ := List.eq_append_cons_of_mem (List.mem_reverse.mpr h)
  refine ⟨earlier.reverse, since.reverse, ?_, mt List.mem_reverse.mp hsince⟩
  simpa using congrArg List.reverse hsplit

/-- A hit is answered with what was answered to the last request of its text. -/
theorem answer_of_hit {earlier since : List String} {s : String}
    (hhit : Hit (earlier ++ s :: since) s) (hsince : s ∉ since) :
    ∃ held, answer (earlier ++ s :: since) s = .ok held ∧ answer earlier s = .ok held := by
  have hmem := hit_iff_mem_keys.mp hhit
  rcases (after (earlier ++ s :: since)).request_cases s with
    ⟨held, hheld, hstep⟩ | ⟨f, hnot, -⟩ | ⟨p, hnot, -⟩
  · refine ⟨held, by rw [answer, hstep], ?_⟩
    exact (follows _).origins _ hheld earlier since rfl hsince
  · exact absurd hmem hnot
  · exact absurd hmem hnot

/-- A miss that compiles is answered with a pattern that has the number of the miss. -/
theorem serial_of_miss {requests : List String} {s : String} {held : Held}
    (hmiss : ¬ Hit requests s) (hheld : answer requests s = .ok held) :
    held.serial = (after requests).misses := by
  rw [hit_iff_mem_keys] at hmiss
  rw [answer] at hheld
  rcases (after requests).request_cases s with
    ⟨held', hmem, -⟩ | ⟨f, -, -, hstep⟩ | ⟨p, -, -, hstep⟩
  · exact absurd (List.mem_map_of_mem (f := (·.1)) hmem) hmiss
  · rw [hstep] at hheld
    cases hheld
  · rw [hstep] at hheld
    cases hheld
    rfl

/-- The numbers of all patterns that have been answered are below the number of the next
    miss. -/
theorem serial_lt_of_answer {earlier : List String} {t : String} {held : Held}
    (hheld : answer earlier t = .ok held) (since : List String) :
    held.serial < (after (earlier ++ t :: since)).misses := by
  induction since using List.reverseRecOn with
  | nil =>
    rw [after_append_singleton]
    exact serial_lt_request (follows earlier).serials hheld
  | append_singleton since u ih =>
    rw [← List.cons_append, ← List.append_assoc, after_append_singleton]
    exact ih.trans_le (misses_le_request _ u)

/-- A hit is a text that compiled when it was last requested, with few others since. -/
theorem hit_iff {requests : List String} {s : String} :
    Hit requests s ↔ ∃ earlier since held, requests = earlier ++ s :: since ∧ s ∉ since ∧
      answer earlier s = .ok held ∧
      (since.toFinset.filter fun t => compiles t).card < capacity := by
  constructor
  · intro hhit
    have htake := hit_iff_mem_take_recent.mp hhit
    obtain ⟨hmem, hs⟩ := mem_recent.mp (List.mem_of_mem_take htake)
    obtain ⟨earlier, since, rfl, hsince⟩ := exists_last_request hmem
    obtain ⟨held, -, hheld⟩ := answer_of_hit hhit hsince
    exact ⟨earlier, since, held, rfl, hsince, hheld, (mem_take_recent_iff hs hsince _).mp htake⟩
  · rintro ⟨earlier, since, held, rfl, hsince, hheld, hfew⟩
    have hpattern := (follows earlier).answer_pattern s
    rw [hheld] at hpattern
    have hs := compiles_of_ok hpattern.symm
    exact hit_iff_mem_take_recent.mpr ((mem_take_recent_iff hs hsince _).mpr hfew)

/-- A text that does not compile is missed, and nothing else is changed. -/
theorem request_of_failing {requests : List String} {s : String} {f : Failure}
    (hs : compilePattern s = .error f) :
    ¬ Hit requests s ∧
      after (requests ++ [s]) = { after requests with misses := (after requests).misses + 1 } := by
  have hmiss : ¬ Hit requests s := by
    rw [hit_iff_mem_take_recent]
    intro hmem
    exact compiles_of_error hs (mem_recent.mp (List.mem_of_mem_take hmem)).2
  refine ⟨hmiss, ?_⟩
  rw [hit_iff_mem_keys] at hmiss
  rw [after_append_singleton]
  rcases (after requests).request_cases s with
    ⟨held, hmem, -⟩ | ⟨f', -, -, hstep⟩ | ⟨p, -, hok, -⟩
  · exact absurd (List.mem_map_of_mem (f := (·.1)) hmem) hmiss
  · rw [hstep]
  · rw [hs] at hok
    cases hok

end Cache

/-- What the cache does, told from the requests alone. Every request is answered as the
    compiler would, and counted once; 512 texts are held at most. It is a hit exactly if
    its text compiled when it was last requested and fewer than 512 other texts that
    compile have been requested since; it is then answered with the very pattern of that
    request. A miss makes a pattern that no request has been answered with. A text that
    does not compile changes nothing but the number of misses. -/
theorem request_follows_recency (requests : List String) (s : String) :
    (Cache.answer requests s).map (·.pattern) = compilePattern s ∧
    (Cache.after requests).hits + (Cache.after requests).misses = requests.length ∧
    (Cache.after requests).size ≤ 512 ∧
    (Cache.Hit requests s ↔ ∃ earlier since held, requests = earlier ++ s :: since ∧
      s ∉ since ∧ Cache.answer earlier s = .ok held ∧
      (since.toFinset.filter fun t => compiles t).card < 512) ∧
    (Cache.Hit requests s → ∀ earlier since, requests = earlier ++ s :: since → s ∉ since →
      Cache.answer requests s = Cache.answer earlier s) ∧
    (¬ Cache.Hit requests s → ∀ held, Cache.answer requests s = .ok held →
      ∀ earlier t since other, requests = earlier ++ t :: since →
        Cache.answer earlier t = .ok other → held.serial ≠ other.serial) ∧
    (∀ f, compilePattern s = .error f → ¬ Cache.Hit requests s ∧
      Cache.after (requests ++ [s]) =
        { Cache.after requests with misses := (Cache.after requests).misses + 1 }) := by
  have hfollows := Cache.follows requests
  refine ⟨hfollows.answer_pattern s, hfollows.tally, Cache.size_after_le requests,
    Cache.hit_iff, ?_, ?_, fun f => Cache.request_of_failing⟩
  · rintro hhit earlier since rfl hsince
    obtain ⟨held, hnow, hthen⟩ := Cache.answer_of_hit hhit hsince
    rw [hnow, hthen]
  · rintro hmiss held hheld earlier t since other rfl hother
    rw [Cache.serial_of_miss hmiss hheld]
    exact (Cache.serial_lt_of_answer hother since).ne'

end Destructure
