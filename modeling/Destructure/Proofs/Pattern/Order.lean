/-
  Destructure/Proofs/Pattern/Order.lean
  =====================================
  **Where a walk comes to** — a walk comes upon stars and names, and each of them is
  a token of the text, one behind the other. So what it comes upon starts at
  increasing offsets, and a name is what the text says at its place.
-/
import Mathlib.Data.List.Forall2
import Destructure.Proofs.Pattern.Findings
import Destructure.Proofs.Pattern.Reading

namespace Destructure

/-! ### What a walk comes upon are tokens -/

/-- A splat is met at its star, a name at the token that writes it. -/
def Sighting.MetAt : Sighting → Token → Prop
  | strayed s, t => s.extent.start = t.start
  | bound n, t => n = t.name

/-- The sightings are met at some of the tokens, in their order. -/
def MetAmong (ss : List Sighting) (ts : List Token) : Prop :=
  ∃ us, List.Sublist us ts ∧ List.Forall₂ Sighting.MetAt ss us

namespace MetAmong

variable {ss ss' : List Sighting} {ts ts' : List Token}

theorem nil (ts : List Token) : MetAmong [] ts := ⟨[], List.nil_sublist ts, .nil⟩

theorem weaken (h : MetAmong ss ts) (hts : List.Sublist ts ts') : MetAmong ss ts' := by
  obtain ⟨us, hus, hmet⟩ := h
  exact ⟨us, hus.trans hts, hmet⟩

theorem append (h : MetAmong ss ts) (h' : MetAmong ss' ts') :
    MetAmong (ss ++ ss') (ts ++ ts') := by
  obtain ⟨us, hus, hmet⟩ := h
  obtain ⟨vs, hvs, hmet'⟩ := h'
  exact ⟨us ++ vs, hus.append hvs, List.rel_append hmet hmet'⟩

theorem of_append_left (h : MetAmong (ss ++ ss') ts) : MetAmong ss' ts := by
  obtain ⟨us, hus, hmet⟩ := h
  refine ⟨us.drop ss.length, (List.drop_sublist _ us).trans hus, ?_⟩
  have hdrop := List.forall₂_drop ss.length hmet
  rwa [List.drop_left] at hdrop

theorem offsets (h : MetAmong ss ts) :
    List.Sublist (ss.map Sighting.offset) (ts.map Token.start) := by
  obtain ⟨us, hus, hmet⟩ := h
  have hoffsets : ss.map Sighting.offset = us.map Token.start := by
    induction hmet with
    | nil => rfl
    | @cons x t ss us hx hss ih =>
      rw [List.map_cons, List.map_cons, ih ((List.sublist_cons_self t us).trans hus)]
      cases x with
      | strayed s => rw [Sighting.offset, hx]
      | bound n =>
        cases hx
        rfl
  rw [hoffsets]
  exact hus.map _

theorem name (h : MetAmong ss ts) {n : Name} (hn : .bound n ∈ ss) : ∃ t ∈ ts, n = t.name := by
  obtain ⟨us, hus, hmet⟩ := h
  have hname : ∃ t ∈ us, n = t.name := by
    clear hus
    induction hmet with
    | nil => cases hn
    | @cons x t ss us hx hss ih =>
      rcases List.mem_cons.mp hn with rfl | hn
      · exact ⟨t, by simp, hx⟩
      · obtain ⟨u, hu, heq⟩ := ih hn
        exact ⟨u, List.mem_cons_of_mem t hu, heq⟩
  obtain ⟨t, ht, heq⟩ := hname
  exact ⟨t, hus.mem ht, heq⟩

end MetAmong

theorem Splat.metAmong (star t : Token) :
    MetAmong (.strayed (.ofToken star.start t) ::
      (Splat.ofToken star.start t).identifiers.map .bound) [star, t] := by
  have hstar : (Sighting.strayed (.ofToken star.start t)).MetAt star := by
    rw [Sighting.MetAt, Splat.extent_ofToken]
  by_cases htext : t.text = anonymousName
  · refine ⟨[star], .cons_cons _ (List.nil_sublist _), .cons hstar ?_⟩
    rw [Splat.ofToken, if_pos htext]
    exact .nil
  · refine ⟨[star, t], List.Sublist.refl _, .cons hstar ?_⟩
    rw [Splat.ofToken, if_neg htext]
    exact .cons rfl .nil

mutual

/-- A walk through a pattern meets some of the tokens that it is written with. -/
theorem Pattern.metAmong (p : Pattern Lexeme) {ts : List Token} (h : p.Derives ts) :
    MetAmong p.sightings ts := by
  cases p with
  | literal e l => exact .nil ts
  | name n =>
    cases h with
    | name ht => exact ⟨_, List.Sublist.refl _, .cons rfl .nil⟩
  | empty e => exact .nil ts
  | array e es =>
    cases h with
    | @array o c _ ts ho hes hc =>
      apply (es.metAmong hes).weaken
      exact (List.sublist_append_left ts [c]).cons o

theorem Elements.metAmong (es : Elements Lexeme) {ts : List Token} (h : es.Derives ts) :
    MetAmong es.sightings ts := by
  cases es with
  | one e i =>
    cases h with
    | one hi => exact (i.metAmong hi).of_append_left
  | more e i c =>
    cases h with
    | more hi hc => exact (i.metAmong hi).append (c.metAmong hc)

theorem Item.metAmong (i : Item Lexeme) {ts : List Token} (h : i.Derives ts) :
    MetAmong (i.strays ++ i.sightings) ts := by
  cases i with
  | pattern p =>
    cases h with
    | pattern hp => exact p.metAmong hp
  | splat s =>
    cases h with
    | splat hstar ht => exact Splat.metAmong _ _

theorem Chain.metAmong (c : Chain Lexeme) {ts : List Token} (h : c.Derives ts) :
    MetAmong c.sightings ts := by
  cases c with
  | link e i c =>
    cases h with
    | @link comma _ _ ts us hcomma hi hc =>
      apply ((i.metAmong hi).append (c.metAmong hc)).weaken
      exact List.sublist_cons_self comma (ts ++ us)
  | last e p =>
    cases h with
    | last hcomma hp => exact (p.metAmong hp).weaken (List.sublist_cons_self _ _)
  | lastSplat e s =>
    cases h with
    | @lastSplat comma star t hcomma hstar ht =>
      have hsplat := Splat.metAmong star t
      rw [← List.singleton_append] at hsplat
      exact hsplat.of_append_left.weaken (List.sublist_cons_self comma [star, t])

end

/-! ### Places in the text -/

theorem text_within {source : String} {before w after : List Char}
    (h : source.toList = before ++ (w ++ after)) :
    ((Extent.mk before.length (before.length + w.length)).within source).text =
      String.ofList w := by
  have hlength : source.toList.length = before.length + (w.length + after.length) := by
    rw [h, List.length_append, List.length_append]
  have hstart : cutOffset source.toList.length (before.length : Nat) = before.length :=
    cutOffset_natCast (by omega)
  have hstop : cutOffset source.toList.length (before.length + w.length : Nat) =
      before.length + w.length := cutOffset_natCast (by omega)
  rw [Span.text, Extent.within, cut, hstart, hstop, h, ← List.append_assoc,
    ← List.length_append, List.take_left, List.drop_left]

/-- A name of a pattern that is read is what the text says at its place. -/
theorem text_of_identifier {source : String} {p : Pattern Literal}
    (h : Pattern.parse source = .ok p) {n : Name} (hn : n ∈ p.identifiers) :
    (n.extent.within source).text = n.text := by
  obtain ⟨form, hform, htraverse⟩ := bind_eq_ok_iff.mp h
  obtain ⟨ts, front, blanks, hsource, hlaid, -, -, hderives⟩ := derives_of_readForm hform
  have hbound : Sighting.bound n ∈ form.sightings := by
    rw [← p.filterMap_name?_sightings, List.mem_filterMap] at hn
    obtain ⟨x, hx, hname⟩ := hn
    cases x with
    | strayed s => cases hname
    | bound m =>
      cases hname
      rwa [← form.sightings_traverse htraverse]
  obtain ⟨t, ht, rfl⟩ := (form.metAmong hderives).name hbound
  obtain ⟨before, after, htext, hstart⟩ := hlaid.text t ht
  rw [Nat.zero_add] at hstart
  rw [htext, List.append_assoc, List.append_assoc] at hsource
  have hextent : t.name.extent = ⟨before.length, before.length + t.text.length⟩ := by
    rw [Token.name, Token.extent, hstart]
  rw [hextent, text_within hsource]
  rfl

end Destructure
