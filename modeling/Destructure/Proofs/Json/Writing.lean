/-
  Destructure/Proofs/Json/Writing.lean
  ====================================
  **What is written as JSON** — every value of JSON is written in its own form, the
  entries of a dictionary from the least key to the greatest (`Value.IsJson.writes`), and
  has no other form (`Value.Writes.unique`). Bindings are written as the dictionary that
  they are.
-/
import Mathlib
import Destructure.Json.Writer
import Destructure.Proofs.Json.Value

namespace Destructure

/-! ### The order of texts -/

/-- Texts are in the lexicographic order of their code points. -/
theorem Text.lt_iff {s t : Text} : Text.lt s t = true ↔ s < t := by
  induction s generalizing t with
  | nil =>
    cases t with
    | nil => simp [Text.lt]
    | cons b t => simp [Text.lt]
  | cons a s ih =>
    cases t with
    | nil => simp [Text.lt]
    | cons b t => simp [Text.lt, List.cons_lt_cons_iff, ih]

theorem Text.not_lt_iff {s t : Text} : (!Text.lt s t) = true ↔ t ≤ s := by
  rw [Bool.not_eq_true', ← Bool.not_eq_true, Text.lt_iff, not_lt]

/-! ### Sorted entries -/

section Sorted

variable {α : Type}

/-- Entries under keys that differ, from the least key to the greatest. -/
def Ascending (es : List (Text × α)) : Prop := es.Pairwise fun a b => a.1 < b.1

/-- Entries in the order of their keys. -/
def inOrder (es : List (Text × α)) : List (Text × α) := es.mergeSort fun a b => !Text.lt b.1 a.1

theorem inOrder_perm (es : List (Text × α)) : (inOrder es).Perm es := List.mergeSort_perm es _

theorem ascending_inOrder {es : List (Text × α)} (hnodup : (es.map Prod.fst).Nodup) :
    Ascending (inOrder es) := by
  have hle : (inOrder es).Pairwise fun a b => a.1 ≤ b.1 := by
    refine (List.pairwise_mergeSort ?_ ?_ es).imp Text.not_lt_iff.mp
    · intro a b c hab hbc
      exact Text.not_lt_iff.mpr ((Text.not_lt_iff.mp hab).trans (Text.not_lt_iff.mp hbc))
    · intro a b
      rw [Bool.or_eq_true, Text.not_lt_iff, Text.not_lt_iff]
      exact le_total a.1 b.1
  have hne : (inOrder es).Pairwise fun a b => a.1 ≠ b.1 :=
    List.pairwise_map.mp (((inOrder_perm es).map Prod.fst).nodup_iff.mpr hnodup)
  exact hle.imp₂ (fun _ _ => lt_of_le_of_ne) hne

theorem Ascending.eq_of_perm {α : Type} {es es' : List (Text × α)} (h : Ascending es)
    (h' : Ascending es') (hperm : es.Perm es') : es = es' :=
  hperm.eq_of_pairwise (fun _ _ _ _ hlt hgt => absurd hlt (lt_asymm hgt)) h h'

theorem sortEntries_map (es : List (Text × α)) (f : α → String) :
    sortEntries (es.map fun e => (e.1, f e.2)) = (inOrder es).map fun e => (e.1, f e.2) := by
  rw [inOrder, List.map_mergeSort]
  · rfl
  · intro a _ b _
    rfl

end Sorted

/-! ### Forms of values -/

/-- The text is the value in the form of JSON. -/
inductive Value.Writes : Value → String → Prop
  | none : Writes .none "null"
  | bool (b : Bool) : Writes (.bool b) (if b then "true" else "false")
  | integer (n : Int) : Writes (.integer n) (toString n)
  | float (x : Binary) : Writes (.float x) x.json
  | text (t : Text) : Writes (.text t) t.json
  | list {items : List Value} {form : Value → String} : (∀ v ∈ items, v.Writes (form v)) →
      Writes (.list items) ("[" ++ ", ".intercalate (items.map form) ++ "]")
  /-- The entries stand in the order of their keys. -/
  | dict {es sorted : List (Text × Value)} {form : Value → String} : sorted.Perm es →
      Ascending sorted → (∀ e ∈ es, e.2.Writes (form e.2)) →
      Writes (.dict (es.map fun e => (.text e.1, e.2)))
        ("\x7b" ++ ", ".intercalate (sorted.map fun e => e.1.json ++ ": " ++ form e.2) ++ "\x7d")

/-- A value has one form at most. -/
theorem Value.Writes.unique {v : Value} {s s' : String} (h : v.Writes s) (h' : v.Writes s') :
    s = s' := by
  induction h generalizing s' with
  | @list items form _ ih =>
    cases h' with
    | @list _ form' hform' =>
      have hforms : items.map form = items.map form' :=
        List.map_congr_left fun v hv => ih v hv (hform' v hv)
      rw [hforms]
  | @dict es sorted form hperm hascending _ ih =>
    generalize hentries : Value.dict (es.map fun e => (.text e.1, e.2)) = d at h'
    cases h' with
    | @dict es' sorted' form' hperm' hascending' hform' =>
      have hes : es = es' := by
        have hinjective : Function.Injective fun e : Text × Value => (Value.text e.1, e.2) := by
          intro a b hab
          simp only [Prod.mk.injEq, Value.text.injEq] at hab
          exact Prod.ext hab.1 hab.2
        exact List.map_injective_iff.mpr hinjective (Value.dict.inj hentries)
      subst hes
      have hsorted := hascending.eq_of_perm hascending' (hperm.trans hperm'.symm)
      subst hsorted
      have hforms : (sorted.map fun e => e.1.json ++ ": " ++ form e.2) =
          sorted.map fun e => e.1.json ++ ": " ++ form' e.2 := by
        apply List.map_congr_left
        intro e he
        have hmem := hperm.mem_iff.mp he
        rw [ih e hmem (hform' e hmem)]
      rw [hforms]
    | _ => cases hentries
  | _ =>
    cases h'
    rfl

/-! ### Writing -/

theorem jsonItems_eq_map (vs : List Value) : jsonItems vs = vs.map Value.json := by
  induction vs with
  | nil => rfl
  | cons v vs ih => rw [jsonItems, ih, List.map_cons]

theorem jsonEntries_map (es : List (Text × Value)) :
    jsonEntries (es.map fun e => (.text e.1, e.2)) = es.map fun e => (e.1, e.2.json) := by
  induction es with
  | nil => rfl
  | cons e es ih =>
    rw [List.map_cons, jsonEntries, ih]
    rfl

theorem Value.json_dict (es : List (Text × Value)) :
    (Value.dict (es.map fun e => (.text e.1, e.2))).json = "\x7b" ++
      ", ".intercalate ((inOrder es).map fun e => e.1.json ++ ": " ++ e.2.json) ++ "\x7d" := by
  rw [Value.json, jsonEntries_map, joinEntries, sortEntries_map, List.map_map]
  rfl

/-- A value of JSON is written in its form. -/
theorem Value.IsJson.writes {v : Value} (h : v.IsJson) : v.Writes v.json := by
  induction h with
  | none => exact .none
  | bool b => exact .bool b
  | integer _ => exact .integer _
  | float x => exact .float x
  | text t => exact .text t
  | list _ _ ih =>
    rw [Value.json, jsonItems_eq_map]
    exact .list ih
  | dict hnodup _ ih =>
    rw [Value.json_dict]
    exact .dict (inOrder_perm _) (ascending_inOrder hnodup) ih

/-! ### Bindings -/

theorem Text.ofString_injective : Function.Injective Text.ofString := by
  have hchar : Function.Injective CodePoint.ofChar := by
    intro c d h
    have hval : c.toNat = d.toNat := congrArg (fun p : CodePoint => p.val) h
    exact Char.toNat_inj.mp hval
  intro s t h
  exact String.toList_injective (List.map_injective_iff.mpr hchar h)

theorem Bindings.toValue_eq (bs : Bindings) :
    bs.toValue = .dict ((bs.map fun b => (Text.ofString b.1, b.2)).map
      fun e => (.text e.1, e.2)) := by
  rw [Bindings.toValue, List.map_map]
  rfl

/-- Bindings of values of JSON under names that differ are a value of JSON, -/
theorem Bindings.isJson_toValue {bs : Bindings} (hnodup : (bs.map Prod.fst).Nodup)
    (h : ∀ b ∈ bs, b.2.IsJson) : bs.toValue.IsJson := by
  rw [Bindings.toValue_eq]
  refine .dict ?_ ?_
  · have hnames := hnodup.map Text.ofString_injective
    rwa [List.map_map] at hnames ⊢
  · intro e he
    obtain ⟨b, hb, rfl⟩ := List.mem_map.mp he
    exact h b hb

/-- and are written as it. -/
theorem Bindings.json_eq (bs : Bindings) : bs.json = bs.toValue.json := by
  rw [Bindings.toValue_eq, Value.json, jsonEntries_map, List.map_map]
  rfl

end Destructure
