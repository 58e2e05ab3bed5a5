/-
  Destructure/Proofs/Matcher/Overflow.lean
  ========================================
  **Where matching has no answer** — a matcher of a pattern fails over a value in two
  places only: a sequence has more elements than can be counted, or an integer literal
  has no room in the type of an element that it is compared with. Both are overflows, so
  whichever is met first decides, and elsewhere the answer is whether the pattern means
  something (`Pattern.definedAt_cases`). The widest floating-point type has room for every
  integer that a text can have.
-/
import Mathlib
import Destructure.Proofs.Matcher.Simulation
import Destructure.Proofs.Number.Exactness
import Destructure.Proofs.Pattern.Valuation

namespace Destructure

/-! ### Literals -/

/-- The literals that a text can have: an integer has no more digits than can be read, and
    a number that is written as floating is a double. -/
def Literal.Held : Literal → Prop
  | integer n => Value.isWritableInteger n = true
  | float x => BinaryFormat.double.Holds x
  | text _ => True

/-- The type has no room for an integer only if no double has, and if it is not the widest
    type. -/
theorem FloatType.ofPlainInteger_eq_error_iff {type : FloatType} {n : Int} {f : Fault}
    (hn : Value.isWritableInteger n = true) :
    type.ofPlainInteger n = .error f ↔
      f = .overflow ∧ type ≠ .longdouble ∧ BinaryFormat.double.ofInt? n = none := by
  cases type with
  | longdouble => simp [ofPlainInteger, hn]
  | float16 | float32 | float64 =>
    cases hdouble : BinaryFormat.double.ofInt? n <;> simp [ofPlainInteger, hdouble, eq_comm]

/-- A number has no equality with an integer only where it is a floating-point element
    whose type has no room for the integer. -/
theorem Number.equals_integer_eq_error_iff {m : Number} {n : Int} {f : Fault} :
    m.equals (.integer n) = .error f ↔
      ∃ type x, m = .elementFloat type x ∧ type.ofPlainInteger n = .error f := by
  cases m with
  | elementFloat type x =>
    cases hn : type.ofPlainInteger n <;>
      simp [equals, related, align, besideFloat, hn, Except.map]
  | _ => simp [equals, related, align, Except.map]

/-- With a floating-point number every number has one. -/
theorem Number.equals_float_ne_error (m : Number) (x : Binary) (f : Fault) :
    m.equals (.float x) ≠ .error f := by
  cases m <;> simp [equals, related, align, besideFloat, Except.map]

/-- A comparison with a literal has no answer only where the literal is an integer and
    stands beside a floating-point element whose type has no room for it. -/
theorem Literal.accepts_eq_error_iff {l : Literal} {v : Value} {f : Fault} :
    l.accepts v = .error f ↔ ∃ n type x, l = .integer n ∧
      v = .number (.elementFloat type x) ∧ type.ofPlainInteger n = .error f := by
  cases l with
  | text s => simp [accepts]
  | integer n =>
    cases v with
    | number m => simp [accepts, Number.equals_integer_eq_error_iff]
    | _ => simp [accepts]
  | float x =>
    cases v with
    | number m => simp [accepts, Number.equals_float_ne_error]
    | _ => simp [accepts]

theorem Literal.accepts_cases {l : Literal} (hl : l.Held) (v : Value) :
    l.accepts v = .error .overflow ∨ l.accepts v = .ok (l.admits v) := by
  cases haccepts : l.accepts v with
  | error f =>
    obtain ⟨n, type, x, rfl, -, hn⟩ := accepts_eq_error_iff.mp haccepts
    obtain ⟨rfl, -⟩ := (FloatType.ofPlainInteger_eq_error_iff hl).mp hn
    exact Or.inl rfl
  | ok b => exact Or.inr (by rw [admits_of_accepts haccepts])

/-! ### What is asked for -/

mutual

/-- A literal that is asked for is one of the pattern. -/
theorem Outline.mem_literals_of_asks (o : Outline Literal) {v x : Value} {l : Literal}
    (hasks : o.Asks v (.literal l) x) : l ∈ o.literals := by
  cases o with
  | literal a =>
    cases hasks
    exact List.mem_singleton.mpr rfl
  | name s => cases hasks
  | array es =>
    cases hasks with
    | array _ _ heach => exact mem_literals_of_eachAsks es heach

theorem mem_literals_of_eachAsks (es : List (Entry Literal)) {v x : Value} {i : Nat}
    {l : Literal} (hasks : EachAsks es v i (.literal l) x) : l ∈ entryLiterals es := by
  cases es with
  | nil => cases hasks
  | cons e es =>
    cases e with
    | splat s => cases hasks
    | pattern q =>
      cases hasks with
      | here _ _ hasks => exact List.mem_append_left _ (q.mem_literals_of_asks hasks)
      | later _ _ hasks => exact List.mem_append_right _ (mem_literals_of_eachAsks es hasks)

end

/-- An integer literal that no double can hold is asked for of a floating-point element
    that is not of the widest type. -/
def Outline.Oversized (o : Outline Literal) (v : Value) : Prop :=
  ∃ n type x, o.Asks v (.literal (.integer n)) (.number (.elementFloat type x)) ∧
    type ≠ .longdouble ∧ 2 ^ 1024 ≤ n.natAbs + 2 ^ 970

theorem Outline.exists_error_of_not_comparable {o : Outline Literal} {v : Value}
    (h : ¬ o.Comparable v) : ∃ l x f, o.Asks v (.literal l) x ∧ l.accepts x = .error f := by
  simp only [Comparable, not_forall] at h
  obtain ⟨l, x, hasks, hnone⟩ := h
  cases haccepts : l.accepts x with
  | ok b => exact absurd ⟨b, haccepts⟩ hnone
  | error f => exact ⟨l, x, f, hasks, haccepts⟩

theorem Outline.not_comparable_iff {o : Outline Literal} (ho : ∀ l ∈ o.literals, l.Held)
    {v : Value} : ¬ o.Comparable v ↔ o.Oversized v := by
  constructor
  · intro h
    obtain ⟨l, x, f, hasks, hfails⟩ := exists_error_of_not_comparable h
    obtain ⟨n, type, y, rfl, rfl, hn⟩ := Literal.accepts_eq_error_iff.mp hfails
    obtain ⟨-, htype, hdouble⟩ :=
      (FloatType.ofPlainInteger_eq_error_iff (ho _ (o.mem_literals_of_asks hasks))).mp hn
    exact ⟨n, type, y, hasks, htype, (double_ofInt?_eq_none_iff n).mp hdouble⟩
  · rintro ⟨n, type, y, hasks, htype, hn⟩ hcomparable
    obtain ⟨b, hb⟩ := hcomparable _ _ hasks
    have hdouble := (double_ofInt?_eq_none_iff n).mpr hn
    have hroom := (FloatType.ofPlainInteger_eq_error_iff (ho _ (o.mem_literals_of_asks hasks))).mpr
      ⟨rfl, htype, hdouble⟩
    have herror := Literal.accepts_eq_error_iff.mpr ⟨n, type, y, rfl, rfl, hroom⟩
    rw [hb] at herror
    cases herror

/-! ### Arrays -/

section Arrays

variable {q : Outline Literal} {es : List (Entry Literal)} {v : Value} {i : Nat}

theorem eachComparable_nil : EachComparable [] v i := by
  intro l x hasks
  cases hasks

theorem eachComparable_splat (s : Option String) : EachComparable (.splat s :: es) v i := by
  intro l x hasks
  cases hasks

/-- Where the items cannot all be compared, it is the first that cannot, or a later one
    behind a first that matches. -/
theorem not_eachComparable_pattern (h : ¬ EachComparable (.pattern q :: es) v i) :
    ∃ x, v.elementAt? i = some x ∧
      ((¬ q.Comparable x ∧ (i ≠ 0 → es = [] → v.length = i + 1)) ∨
        (q.capture? x).isSome = true ∧ ¬ EachComparable es v (i + 1)) := by
  simp only [EachComparable, not_forall] at h
  obtain ⟨l, x, hasks, hnone⟩ := h
  cases hasks with
  | here hy hlast hasks =>
    exact ⟨_, hy, Or.inl ⟨fun hcomparable => hnone (hcomparable l x hasks), hlast⟩⟩
  | later hy hbs hasks =>
    exact ⟨_, hy, Or.inr ⟨by rw [hbs]; rfl, fun heach => hnone (heach l x hasks)⟩⟩

theorem not_comparable_array (h : ¬ (Outline.array es).Comparable v) :
    v.isSequence = true ∧ v.length ≤ Value.countLimit ∧ ¬ EachComparable es v 0 := by
  simp only [Outline.Comparable, not_forall] at h
  obtain ⟨l, x, hasks, hnone⟩ := h
  cases hasks with
  | array hsequence hlength hasks =>
    exact ⟨hsequence, hlength, fun heach => hnone (heach l x hasks)⟩

end Arrays

/-! ### Matchers -/

section Link

variable {source : String} {p : Pattern Literal} {es : List (Entry Literal)} {v x : Value}
  {i : Nat} {h t : Matcher}

/-- What overflows where it cannot be compared overflows or answers whether there is a
    meaning. -/
theorem Pattern.overflow_or_answer (hp : p.toMatcher source = .ok h) (hx : x.WellFormed)
    (hoverflow : ¬ p.outline.Comparable x → h.definedAt x = .error .overflow) :
    h.definedAt x = .error .overflow ∨ h.definedAt x = .ok (p.outline.capture? x).isSome := by
  by_cases hcomparable : p.outline.Comparable x
  · rcases p.simulates hp hx hcomparable with ⟨-, herror⟩ | ⟨-, hdefined, -⟩
    · exact Or.inl herror
    · exact Or.inr hdefined
  · exact Or.inl (hoverflow hcomparable)

/-- A link overflows where its items cannot all be compared: its own item overflows, or
    the rest does behind an item that matches. -/
theorem definedAt_item_overflow (hp : p.toMatcher source = .ok h) (hv : v.WellFormed)
    (hsequence : v.isSequence = true) (hlength : v.length ≤ Value.countLimit)
    (hhead : ∀ x, v.elementAt? i = some x → ¬ p.outline.Comparable x →
      h.definedAt x = .error .overflow)
    (htail : ¬ EachComparable es v (i + 1) → t.definedAt v = .error .overflow)
    (hnot : ¬ EachComparable (.pattern p.outline :: es) v i) (origin : Option Span) :
    (Matcher.item h t i origin).definedAt v = .error .overflow := by
  obtain ⟨x, hx, ⟨hitem, -⟩ | ⟨hsome, hrest⟩⟩ := not_eachComparable_pattern hnot
  · rw [Simulates.definedAt_item hsequence hlength hx, hhead x hx hitem]
    rfl
  · rw [Simulates.definedAt_item hsequence hlength hx]
    rcases Pattern.overflow_or_answer hp (hv.elementAt? hx) (hhead x hx) with herror | hok
    · rw [herror]
      rfl
    · rw [hok, hsome]
      exact htail hrest

/-- So does the last of several items where no element follows its own. -/
theorem definedAt_last_overflow (hi : i ≠ 0) (hsequence : v.isSequence = true)
    (hlength : v.length ≤ Value.countLimit)
    (hlast : ∀ x, v.elementAt? i = some x → ¬ p.outline.Comparable x →
      h.definedAt x = .error .overflow)
    (hnot : ¬ EachComparable [.pattern p.outline] v i) (origin : Option Span) :
    (Matcher.last h i origin).definedAt v = .error .overflow := by
  obtain ⟨x, hx, ⟨hitem, hend⟩ | ⟨-, hrest⟩⟩ := not_eachComparable_pattern hnot
  · have hindex : ((i : Int) + 1 == (v.length : Int)) = true := by
      rw [beq_iff_eq, hend hi rfl]
      rfl
    rw [Matcher.definedAt, Value.length?_eq_some hsequence hlength]
    simp only [ok_bind, if_pos hindex, Value.element_eq_ok hx]
    exact hlast x hx hitem
  · exact absurd eachComparable_nil hrest

end Link

mutual

/-- A matcher overflows over a value at which its pattern asks for a comparison without
    an answer. -/
theorem Pattern.overflows {source : String} (p : Pattern Literal) {m : Matcher}
    (hm : p.toMatcher source = .ok m) (hheld : ∀ l ∈ p.outline.literals, l.Held) {v : Value}
    (hv : v.WellFormed) (hnot : ¬ p.outline.Comparable v) :
    m.definedAt v = .error .overflow := by
  cases p with
  | literal e l =>
    cases hm
    have hl : l.Held := hheld l (List.mem_singleton.mpr rfl)
    rcases Literal.accepts_cases hl v with herror | hok
    · exact herror
    · refine absurd ?_ hnot
      intro l' x hasks
      cases hasks
      exact ⟨_, hok⟩
  | name n =>
    refine absurd ?_ hnot
    intro l x hasks
    cases hasks
  | empty e =>
    obtain ⟨-, -, heach⟩ := not_comparable_array hnot
    exact absurd eachComparable_nil heach
  | array e es =>
    obtain ⟨hsequence, hlength, heach⟩ := not_comparable_array hnot
    exact es.overflows hm hheld hv hsequence hlength heach

theorem Elements.overflows {source : String} (es : Elements Literal) {m : Matcher}
    (hm : es.toMatcher source = .ok m) (hheld : ∀ l ∈ entryLiterals es.entries, l.Held)
    {v : Value} (hv : v.WellFormed) (hsequence : v.isSequence = true)
    (hlength : v.length ≤ Value.countLimit) (hnot : ¬ EachComparable es.entries v 0) :
    m.definedAt v = .error .overflow := by
  cases es with
  | one e i =>
    cases i with
    | splat s => exact absurd (eachComparable_splat s.name?) hnot
    | pattern p =>
      obtain ⟨h, hp, hm⟩ := bind_eq_ok_iff.mp hm
      cases hm
      obtain ⟨hfirst, hrest⟩ := List.forall_mem_append.mp hheld
      apply definedAt_item_overflow (i := 0) hp hv hsequence hlength _ _ hnot
      · exact fun x hx hitem => p.overflows hp hfirst (hv.elementAt? hx) hitem
      · exact fun hnone => absurd eachComparable_nil hnone
  | more e i c =>
    cases i with
    | splat s => cases hm
    | pattern p =>
      obtain ⟨t, hc, hm⟩ := bind_eq_ok_iff.mp hm
      obtain ⟨h, hp, hm⟩ := bind_eq_ok_iff.mp hm
      cases hm
      obtain ⟨hfirst, hrest⟩ := List.forall_mem_append.mp hheld
      apply definedAt_item_overflow (i := 0) hp hv hsequence hlength _ _ hnot
      · exact fun x hx hitem => p.overflows hp hfirst (hv.elementAt? hx) hitem
      · exact c.overflows 1 Nat.one_ne_zero hc hrest hv hsequence hlength

theorem Chain.overflows {source : String} (c : Chain Literal) (i : Nat) (hi : i ≠ 0)
    {m : Matcher} (hm : c.toMatcher source i = .ok m)
    (hheld : ∀ l ∈ entryLiterals c.entries, l.Held) {v : Value} (hv : v.WellFormed)
    (hsequence : v.isSequence = true) (hlength : v.length ≤ Value.countLimit)
    (hnot : ¬ EachComparable c.entries v i) : m.definedAt v = .error .overflow := by
  cases c with
  | link e item c =>
    cases item with
    | splat s => cases hm
    | pattern p =>
      obtain ⟨h, hp, hm⟩ := bind_eq_ok_iff.mp hm
      obtain ⟨t, hc, hm⟩ := bind_eq_ok_iff.mp hm
      cases hm
      obtain ⟨hfirst, hrest⟩ := List.forall_mem_append.mp hheld
      apply definedAt_item_overflow hp hv hsequence hlength _ _ hnot
      · exact fun x hx hitem => p.overflows hp hfirst (hv.elementAt? hx) hitem
      · exact c.overflows (i + 1) (Nat.succ_ne_zero i) hc hrest hv hsequence hlength
  | last e p =>
    obtain ⟨h, hp, hm⟩ := bind_eq_ok_iff.mp hm
    cases hm
    obtain ⟨hfirst, -⟩ := List.forall_mem_append.mp hheld
    apply definedAt_last_overflow hi hsequence hlength _ hnot
    exact fun x hx hitem => p.overflows hp hfirst (hv.elementAt? hx) hitem
  | lastSplat e s => exact absurd (eachComparable_splat s.name?) hnot

end

/-- A matcher overflows where its pattern asks for too long a sequence or for a comparison
    with too large a literal, and answers elsewhere whether the pattern has a meaning. -/
theorem Pattern.definedAt_cases {source : String} (p : Pattern Literal) {m : Matcher}
    (hm : p.toMatcher source = .ok m) (hheld : ∀ l ∈ p.outline.literals, l.Held) {v : Value}
    (hv : v.WellFormed) :
    ((p.outline.Uncountable v ∨ p.outline.Oversized v) ∧ m.definedAt v = .error .overflow) ∨
      (¬ (p.outline.Uncountable v ∨ p.outline.Oversized v) ∧
        m.definedAt v = .ok (p.outline.capture? v).isSome) := by
  by_cases hcomparable : p.outline.Comparable v
  · have hsized : ¬ p.outline.Oversized v :=
      fun h => (Outline.not_comparable_iff hheld).mpr h hcomparable
    rcases p.simulates hm hv hcomparable with ⟨hlong, herror⟩ | ⟨hshort, hdefined, -⟩
    · exact Or.inl ⟨Or.inl hlong, herror⟩
    · exact Or.inr ⟨not_or.mpr ⟨hshort, hsized⟩, hdefined⟩
  · exact Or.inl ⟨Or.inr ((Outline.not_comparable_iff hheld).mp hcomparable),
      p.overflows hm hheld hv hcomparable⟩

end Destructure
