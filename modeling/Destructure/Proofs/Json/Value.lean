/-
  Destructure/Proofs/Json/Value.lean
  ==================================
  **Values of JSON** — what JSON has a form for: texts and numbers, truth values and
  nothing, lists of such values, and dictionaries of them under texts that differ. Their
  elements and suffixes are of this kind again, none is a floating-point element, and none
  has more elements than can be counted. So a pattern always has an answer for them, and
  what it captures can be written as JSON.
-/
import Mathlib
import Destructure.Proofs.Compile.Views
import Destructure.Proofs.Matcher.Inheritance
import Destructure.Proofs.Matcher.Overflow

namespace Destructure

/-- The values that JSON has a form for. An integer has to be one that can be written. -/
inductive Value.IsJson : Value → Prop
  | none : IsJson .none
  | bool (b : Bool) : IsJson (.bool b)
  | integer {n : Int} : isWritableInteger n = true → IsJson (.integer n)
  | float (x : Binary) : IsJson (.float x)
  | text (t : Text) : IsJson (.text t)
  | list {items : List Value} : items.length ≤ countLimit → (∀ v ∈ items, v.IsJson) →
      IsJson (.list items)
  | dict {es : List (Text × Value)} : (es.map Prod.fst).Nodup → (∀ e ∈ es, e.2.IsJson) →
      IsJson (.dict (es.map fun e => (.text e.1, e.2)))

theorem isJson_dict_nil : (Value.dict []).IsJson :=
  @Value.IsJson.dict [] List.nodup_nil fun e he => by cases he

namespace Value.IsJson

variable {v x w : Value} {i : Nat}

theorem wellFormed (h : v.IsJson) : v.WellFormed := by
  induction h with
  | list _ _ ih => exact (allWellFormed_iff _).mpr ih
  | _ => trivial

theorem elementAt? (h : v.IsJson) (hx : v.elementAt? i = some x) : x.IsJson := by
  cases h with
  | list _ hitems => exact hitems x (List.mem_of_getElem? hx)
  | _ => cases hx

theorem suffix (h : v.IsJson) (hsequence : v.isSequence = true) (hw : v.suffix i = .ok w) :
    w.IsJson := by
  cases h with
  | @list items hlength hitems =>
    cases hw
    refine .list ?_ fun v hv => hitems v (List.mem_of_mem_drop hv)
    rw [List.length_drop]
    omega
  | _ => cases hsequence

theorem length_le (h : v.IsJson) : v.length ≤ countLimit := by
  cases h with
  | list hlength _ => exact hlength
  | _ => exact Nat.zero_le _

end Value.IsJson

/-! ### Matching -/

/-- A pattern has an answer for every such value. -/
theorem Pattern.answers_of_isJson (p : Pattern Literal) {v : Value} (hv : v.IsJson) :
    p.outline.Comparable v ∧ ¬ p.outline.Uncountable v := by
  constructor
  · by_contra hnot
    obtain ⟨l, x, f, hasks, hfails⟩ := Outline.exists_error_of_not_comparable hnot
    obtain ⟨n, type, y, -, rfl, -⟩ := Literal.accepts_eq_error_iff.mp hfails
    have hx := p.outline.asks_inherits Value.IsJson.elementAt? hasks hv
    cases hx
  · rintro ⟨es, x, hasks, -, hlong⟩
    have hx := p.outline.asks_inherits Value.IsJson.elementAt? hasks hv
    exact absurd hx.length_le (Nat.not_le.mpr hlong)

section Match

variable {source : String} {c : CompiledPattern} {v : Value}

/-- Matching such a value always comes to an end: with bindings that can be written as
    JSON under names that differ, or with none. -/
theorem exists_match_of_isJson (hc : compilePattern source = .ok c) (hv : v.IsJson) :
    (∃ bs, c.match? v = .ok (some bs) ∧ (bs.map Prod.fst).Nodup ∧ ∀ b ∈ bs, b.2.IsJson) ∨
      c.match? v = .ok none := by
  obtain ⟨t, -, hnodup, hnames, -⟩ := names_of_compilePattern hc
  obtain ⟨p, m, hp, hnil, hm, rfl⟩ := (compilePattern_eq_ok_iff source c).mp hc
  obtain ⟨hcomparable, hshort⟩ := p.answers_of_isJson hv
  rcases p.simulates hm hv.wellFormed hcomparable with ⟨hlong, -⟩ | ⟨-, hdefined, hcaptured⟩
  · exact absurd hlong hshort
  rw [← hnames] at hnodup
  cases hcapture : p.outline.capture? v with
  | none =>
    rw [hcapture] at hdefined
    exact Or.inr (CompiledPattern.match?_of_not_definedAt hdefined)
  | some bs =>
    rw [hcapture] at hdefined
    have hbs := hcaptured bs hcapture hnodup
    refine Or.inl ⟨bs, CompiledPattern.match?_eq_some_iff.mpr ⟨hdefined, hbs⟩, ?_, ?_⟩
    · rwa [Matcher.keys_of_bindings hdefined hbs]
    · exact p.outline.capture?_inherits Value.IsJson.elementAt? Value.IsJson.suffix hv hcapture

end Match

end Destructure
