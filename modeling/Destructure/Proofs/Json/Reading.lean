/-
  Destructure/Proofs/Json/Reading.lean
  ====================================
  **What is read from JSON** — each part of the reading takes characters from the front
  of what is left, so what a step says of a place holds of the whole text. Whatever is
  read is a value of JSON (`readJson_cases`): a list has no more items than the text has
  characters, and the keys of a dictionary differ. Where nothing is read, the text is
  malformed or has a run of more digits than an integer may have.
-/
import Mathlib
import Destructure.Json.Reader
import Destructure.Proofs.Json.Value
import Destructure.Proofs.Number.Integer

namespace Destructure

/-! ### Steps of the reading -/

/-- More digits stand one behind the other than an integer may have. -/
def HasLongRun (cs : List Char) : Prop :=
  ∃ ds, ds <:+: cs ∧ (∀ d ∈ ds, d.isDigit = true) ∧ integerDigitLimit < ds.length

/-- What a step from a place comes to: something that is as described with the end of the
    text left, or a fault. Too many digits are a fault only where there are too many. -/
def Reads {α : Type} (c : JsonCursor) (P : α → JsonCursor → Prop) :
    Except JsonFault (α × JsonCursor) → Prop
  | .ok (x, d) => d.rest <:+ c.rest ∧ P x d
  | .error .tooManyDigits => HasLongRun c.rest
  | .error (.malformed _ _) => True

section Steps

variable {α β : Type} {c d : JsonCursor} {P : α → JsonCursor → Prop}
  {Q : β → JsonCursor → Prop} {r : Except JsonFault (α × JsonCursor)}

theorem HasLongRun.mono {cs ds : List Char} (h : HasLongRun ds) (hsuffix : ds <:+ cs) :
    HasLongRun cs := by
  obtain ⟨run, hrun, hdigits, hlong⟩ := h
  exact ⟨run, hrun.trans hsuffix.isInfix, hdigits, hlong⟩

theorem JsonCursor.skip_suffix (c : JsonCursor) (n : Nat) : (c.skip n).rest <:+ c.rest :=
  List.drop_suffix n c.rest

theorem JsonCursor.skipBlanks_suffix (c : JsonCursor) : c.skipBlanks.rest <:+ c.rest :=
  c.skip_suffix _

/-- What is behind a character and the blanks that follow it. -/
theorem JsonCursor.next_suffix (c : JsonCursor) : (c.skip 1).skipBlanks.rest <:+ c.rest :=
  (c.skip 1).skipBlanks_suffix.trans (c.skip_suffix 1)

theorem JsonCursor.skip_lt {x : Char} {cs : List Char} {n : Nat} (hrest : c.rest = x :: cs)
    (hn : 0 < n) : (c.skip n).rest.length < c.rest.length := by
  rw [skip, hrest, List.length_drop, List.length_cons]
  omega

/-- A step from a place further on is one from here. -/
theorem Reads.of_suffix (h : Reads d P r) (hsuffix : d.rest <:+ c.rest) : Reads c P r := by
  cases r with
  | ok x => exact ⟨h.1.trans hsuffix, h.2⟩
  | error f =>
    cases f with
    | malformed cause offset => trivial
    | tooManyDigits => exact h.mono hsuffix

theorem Reads.bind {f : α × JsonCursor → Except JsonFault (β × JsonCursor)} (h : Reads c P r)
    (hf : ∀ x d, d.rest <:+ c.rest → P x d → Reads d Q (f (x, d))) : Reads c Q (r >>= f) := by
  cases r with
  | ok x => exact (hf x.1 x.2 h.1 h.2).of_suffix h.1
  | error e =>
    cases e with
    | malformed cause offset => trivial
    | tooManyDigits => exact h

theorem Reads.pure {x : α} (hsuffix : d.rest <:+ c.rest) (h : P x d) :
    Reads c P (pure (x, d)) :=
  ⟨hsuffix, h⟩

end Steps

/-! ### Texts -/

theorem readUnicodeEscape_ne_tooManyDigits (c : JsonCursor) :
    readUnicodeEscape c ≠ .error .tooManyDigits := by
  unfold readUnicodeEscape
  dsimp only
  split
  · simp [JsonCursor.fault]
  · simp [JsonCursor.fault]
  · split
    · split
      · simp [JsonCursor.fault]
      · split <;> simp
    · simp
  · simp

theorem readJsonText_reads (start fuel : Nat) (c : JsonCursor) :
    Reads c (fun _ _ => True) (readJsonText start fuel c) := by
  induction fuel generalizing c with
  | zero => trivial
  | succ fuel ih =>
    have hstep : ∀ (point : CodePoint) (n : Nat), Reads c (fun _ _ => True)
        (readJsonText start fuel (c.skip n) >>= fun x => pure (point :: x.1, x.2)) := by
      intro point n
      refine Reads.of_suffix ?_ (c.skip_suffix n)
      exact (ih (c.skip n)).bind fun t d _ _ => .pure (List.suffix_refl _) trivial
    unfold readJsonText
    split
    · trivial
    · exact .pure (c.skip_suffix 1) trivial
    · trivial
    · cases hescape : readUnicodeEscape c with
      | error f =>
        cases f with
        | malformed cause offset => trivial
        | tooManyDigits => exact absurd hescape (readUnicodeEscape_ne_tooManyDigits c)
      | ok x => exact hstep x.1 (2 + x.2)
    · split
      · trivial
      · exact hstep _ 2
    · split
      · trivial
      · exact hstep _ 1

/-! ### Numbers -/

theorem isDigit_of_mem_leadingDigits {cs : List Char} {c : Char} (h : c ∈ leadingDigits cs) :
    c.isDigit = true :=
  List.mem_takeWhile_imp h

theorem isDigit_of_mem_jsonWhole {cs : List Char} {c : Char} (h : c ∈ jsonWhole cs) :
    c.isDigit = true := by
  unfold jsonWhole at h
  split at h
  · rw [List.mem_singleton.mp h]
    rfl
  · exact isDigit_of_mem_leadingDigits h

theorem jsonWhole_head (cs : List Char) : jsonWhole cs <+: cs := by
  unfold jsonWhole
  split
  · exact ⟨_, rfl⟩
  · exact List.takeWhile_prefix _

/-- The digits of a whole number write one, unless there are too many. -/
theorem readInteger_whole {cs : List Char} (hne : (jsonWhole cs).isEmpty = false)
    (negative : Bool) :
    (∃ n, readInteger ((if negative then ['-'] else []) ++ jsonWhole cs) = .ok n ∧
      Value.isWritableInteger n = true) ∨
    (∃ f, readInteger ((if negative then ['-'] else []) ++ jsonWhole cs) = .error f) ∧
      HasLongRun cs := by
  have hdigits : ∀ d ∈ jsonWhole cs, isDecimalDigit d = true :=
    fun d hd => isDecimalDigit_of_isDigit (isDigit_of_mem_jsonWhole hd)
  have hread := readInteger_digits (by simpa using hne) hdigits negative
  by_cases hlong : integerDigitLimit < (jsonWhole cs).length
  · rw [if_pos hlong] at hread
    exact Or.inr ⟨⟨_, hread⟩, _, (jsonWhole_head cs).isInfix,
      fun d hd => isDigit_of_mem_jsonWhole hd, hlong⟩
  · rw [if_neg hlong] at hread
    exact Or.inl ⟨_, hread, isWritableInteger_of_readInteger hread⟩

theorem readJsonNumber_reads (c : JsonCursor) :
    Reads c (fun v d => v.IsJson ∧ d.rest.length < c.rest.length) (readJsonNumber c) := by
  unfold readJsonNumber
  extract_lets minus whole fraction exponent digits behind
  split
  · trivial
  · next hwhole =>
    have hbehind : behind.rest.length < c.rest.length := by
      cases hrest : c.rest with
      | nil => simp [whole, hrest, jsonWhole, leadingDigits] at hwhole
      | cons x cs =>
        have hlength : 0 < digits.length := by
          have hpos := List.length_pos_of_ne_nil (mt List.isEmpty_iff.mpr hwhole)
          simp only [digits, List.length_append]
          omega
        rw [← hrest]
        exact JsonCursor.skip_lt hrest hlength
    split
    · next hplain =>
      rw [Bool.and_eq_true, List.isEmpty_iff, List.isEmpty_iff] at hplain
      have hdigits : digits = (if decide (c.rest.head? = some '-') = true then ['-'] else []) ++
          jsonWhole (c.rest.drop minus.length) := by
        simp [digits, hplain, minus, whole]
      rw [hdigits]
      have hsome : (jsonWhole (c.rest.drop minus.length)).isEmpty = false := by simpa using hwhole
      rcases readInteger_whole hsome (decide (c.rest.head? = some '-')) with
        ⟨n, hn, hwritable⟩ | ⟨⟨f, hf⟩, hlong⟩
      · rw [hn]
        exact ⟨c.skip_suffix _, .integer hwritable, hbehind⟩
      · rw [hf]
        exact hlong.mono (c.skip_suffix _)
    · exact ⟨c.skip_suffix _, .float _, hbehind⟩

/-! ### Entries -/

theorem map_fst_replaceEntry (es : List (Text × Value)) (key : Text) (v : Value) :
    (replaceEntry es key v).map Prod.fst =
      if es.any (·.1 == key) then es.map Prod.fst else es.map Prod.fst ++ [key] := by
  unfold replaceEntry
  split
  · rw [List.map_map]
    apply List.map_congr_left
    intro e _
    by_cases hkey : e.1 = key
    · simp [hkey]
    · simp [hkey]
  · simp

/-- The keys differ as before. -/
theorem nodup_replaceEntry {es : List (Text × Value)} (h : (es.map Prod.fst).Nodup) (key : Text)
    (v : Value) : ((replaceEntry es key v).map Prod.fst).Nodup := by
  rw [map_fst_replaceEntry]
  split
  · exact h
  · next hany =>
    have hkey : key ∉ es.map Prod.fst := by
      intro hmem
      obtain ⟨e, he, rfl⟩ := List.mem_map.mp hmem
      exact hany (List.any_eq_true.mpr ⟨e, he, beq_self_eq_true _⟩)
    rw [List.nodup_append]
    refine ⟨h, List.nodup_singleton key, ?_⟩
    rintro t ht u hu rfl
    exact hkey (List.mem_singleton.mp hu ▸ ht)

theorem mem_replaceEntry {es : List (Text × Value)} {key : Text} {v : Value}
    {e : Text × Value} (h : e ∈ replaceEntry es key v) : e ∈ es ∨ e.2 = v := by
  unfold replaceEntry at h
  split at h
  · obtain ⟨e', he', rfl⟩ := List.mem_map.mp h
    split
    · exact Or.inr rfl
    · exact Or.inl he'
  · rcases List.mem_append.mp h with h | h
    · exact Or.inl h
    · rw [List.mem_singleton.mp h]
      exact Or.inr rfl

/-! ### Values -/

theorem isJson_of_mem_jsonWords {w : String × Value} (h : w ∈ jsonWords) :
    w.2.IsJson ∧ 0 < w.1.length := by
  simp only [jsonWords, List.mem_cons, List.not_mem_nil, or_false] at h
  rcases h with rfl | rfl | rfl | rfl | rfl | rfl
  · exact ⟨.none, by decide⟩
  · exact ⟨.bool true, by decide⟩
  · exact ⟨.bool false, by decide⟩
  · exact ⟨.float _, by decide⟩
  · exact ⟨.float _, by decide⟩
  · exact ⟨.float _, by decide⟩

/-- A word at the head of what is left takes a character at least. -/
theorem JsonCursor.skip_word_lt {c : JsonCursor} {word : String}
    (hfront : word.toList.isPrefixOf c.rest = true) (hword : 0 < word.length) :
    (c.skip word.length).rest.length < c.rest.length := by
  have hlength := (List.isPrefixOf_iff_prefix.mp hfront).length_le
  rw [String.length_toList] at hlength
  rw [skip, List.length_drop]
  omega

mutual

/-- A value takes a character at least. -/
theorem readJsonValue_reads (fuel : Nat) (c : JsonCursor)
    (hroom : c.rest.length ≤ Value.countLimit) :
    Reads c (fun v d => v.IsJson ∧ d.rest.length < c.rest.length) (readJsonValue fuel c) := by
  cases fuel with
  | zero => trivial
  | succ fuel =>
    have hinside := (c.skip 1).skipBlanks_suffix
    unfold readJsonValue
    split
    · next cs hrest =>
      have hlt := JsonCursor.skip_lt hrest Nat.one_pos
      refine Reads.of_suffix ?_ (c.skip_suffix 1)
      refine (readJsonText_reads c.offset (c.rest.length + 1) (c.skip 1)).bind ?_
      intro t d hd _
      exact .pure (List.suffix_refl _) ⟨.text t, hd.length_le.trans_lt hlt⟩
    · next cs hrest =>
      have hlt := hinside.length_le.trans_lt (JsonCursor.skip_lt hrest Nat.one_pos)
      refine Reads.of_suffix ?_ (hinside.trans (c.skip_suffix 1))
      dsimp only
      split
      · refine ⟨JsonCursor.skip_suffix _ 1, .list (Nat.zero_le _) (fun v hv => by cases hv), ?_⟩
        exact (JsonCursor.skip_suffix _ 1).length_le.trans_lt hlt
      · refine (readJsonItems_reads fuel _ (hlt.le.trans hroom)).bind ?_
        rintro vs d hd ⟨hvs, hlength⟩
        have hitems : vs.length ≤ Value.countLimit := by omega
        exact .pure (List.suffix_refl _) ⟨.list hitems hvs, hd.length_le.trans_lt hlt⟩
    · next cs hrest =>
      have hlt := hinside.length_le.trans_lt (JsonCursor.skip_lt hrest Nat.one_pos)
      refine Reads.of_suffix ?_ (hinside.trans (c.skip_suffix 1))
      dsimp only
      split
      · refine ⟨JsonCursor.skip_suffix _ 1, ?_, ?_⟩
        · exact isJson_dict_nil
        · exact (JsonCursor.skip_suffix _ 1).length_le.trans_lt hlt
      · refine (readJsonEntries_reads fuel _ (hlt.le.trans hroom) [] List.nodup_nil ?_).bind ?_
        · exact fun e he => by cases he
        rintro es d hd ⟨hnodup, hes⟩
        exact .pure (List.suffix_refl _) ⟨.dict hnodup hes, hd.length_le.trans_lt hlt⟩
    · split
      · next word v hfind =>
        have hfront : word.toList.isPrefixOf c.rest = true := by simpa using List.find?_some hfind
        obtain ⟨hv, hword⟩ := isJson_of_mem_jsonWords (List.mem_of_find?_eq_some hfind)
        exact ⟨c.skip_suffix _, hv, JsonCursor.skip_word_lt hfront hword⟩
      · exact readJsonNumber_reads c

/-- An item takes a character, so there are no more items than characters. -/
theorem readJsonItems_reads (fuel : Nat) (c : JsonCursor)
    (hroom : c.rest.length ≤ Value.countLimit) :
    Reads c (fun vs d => (∀ v ∈ vs, v.IsJson) ∧ vs.length + d.rest.length ≤ c.rest.length)
      (readJsonItems fuel c) := by
  cases fuel with
  | zero => trivial
  | succ fuel =>
    unfold readJsonItems
    refine (readJsonValue_reads fuel c hroom).bind ?_
    rintro v d hd ⟨hv, hlt⟩
    have hblanks := d.skipBlanks_suffix
    refine Reads.of_suffix ?_ hblanks
    dsimp only
    split
    · refine .pure (JsonCursor.skip_suffix _ 1) ⟨by simpa using hv, ?_⟩
      have hend := (d.skipBlanks.skip_suffix 1).length_le
      have hlength := hblanks.length_le
      rw [List.length_singleton]
      omega
    · next cs hrest =>
      have hlength := (d.skipBlanks.next_suffix.trans hblanks).length_le
      refine Reads.of_suffix ?_ d.skipBlanks.next_suffix
      refine (readJsonItems_reads fuel _ (by omega)).bind ?_
      rintro vs e he ⟨hvs, hmore⟩
      have hitems : (v :: vs).length + e.rest.length ≤ c.rest.length := by
        rw [List.length_cons]
        omega
      exact .pure (List.suffix_refl _) ⟨by simpa using ⟨hv, hvs⟩, hitems⟩
    · trivial

/-- The keys read so far differ, and their values are values of JSON. -/
theorem readJsonEntries_reads (fuel : Nat) (c : JsonCursor)
    (hroom : c.rest.length ≤ Value.countLimit) (es : List (Text × Value))
    (hnodup : (es.map Prod.fst).Nodup) (hes : ∀ e ∈ es, e.2.IsJson) :
    Reads c (fun es _ => (es.map Prod.fst).Nodup ∧ ∀ e ∈ es, e.2.IsJson)
      (readJsonEntries fuel es c) := by
  cases fuel with
  | zero => trivial
  | succ fuel =>
    unfold readJsonEntries
    split
    · trivial
    · refine Reads.of_suffix ?_ (c.skip_suffix 1)
      refine (readJsonText_reads c.offset (c.rest.length + 1) (c.skip 1)).bind ?_
      intro key d hd _
      have hblanks := d.skipBlanks_suffix
      refine Reads.of_suffix ?_ hblanks
      dsimp only
      split
      · trivial
      · have hkey := (hblanks.trans hd).trans (c.skip_suffix 1)
        have hcolon := d.skipBlanks.next_suffix
        refine Reads.of_suffix ?_ hcolon
        refine (readJsonValue_reads fuel _ ((hcolon.trans hkey).length_le.trans hroom)).bind ?_
        rintro v e he ⟨hv, -⟩
        have hmore : ∀ x ∈ replaceEntry es key v, x.2.IsJson := by
          intro x hx
          rcases mem_replaceEntry hx with hx | hx
          · exact hes x hx
          · rwa [hx]
        refine Reads.of_suffix ?_ e.skipBlanks_suffix
        dsimp only
        split
        · exact .pure (JsonCursor.skip_suffix _ 1) ⟨nodup_replaceEntry hnodup key v, hmore⟩
        · refine Reads.of_suffix ?_ e.skipBlanks.next_suffix
          have hrest := ((e.skipBlanks.next_suffix.trans e.skipBlanks_suffix).trans he).trans hcolon
          exact readJsonEntries_reads fuel _ ((hrest.trans hkey).length_le.trans hroom) _
            (nodup_replaceEntry hnodup key v) hmore
        · trivial

end

/-! ### Texts of JSON -/

/-- A text is a value of JSON, or is malformed, or has too long a number. -/
theorem readJson_cases {cs : List Char} (hlength : cs.length ≤ Value.countLimit) :
    (∃ v, readJson cs = .ok v ∧ v.IsJson) ∨
      (∃ cause offset, readJson cs = .error (.malformed cause offset)) ∨
      readJson cs = .error .tooManyDigits ∧ HasLongRun cs := by
  have hblanks := (JsonCursor.mk 0 cs).skipBlanks_suffix
  have hread := readJsonValue_reads (2 * cs.length + 2) _ (hblanks.length_le.trans hlength)
  unfold readJson
  split
  · exact Or.inr (Or.inl ⟨_, _, rfl⟩)
  · cases hvalue : readJsonValue (2 * cs.length + 2) (JsonCursor.mk 0 cs).skipBlanks with
    | error f =>
      rw [hvalue] at hread
      cases f with
      | malformed cause offset => exact Or.inr (Or.inl ⟨cause, offset, rfl⟩)
      | tooManyDigits => exact Or.inr (Or.inr ⟨rfl, hread.mono hblanks⟩)
    | ok x =>
      obtain ⟨v, c⟩ := x
      rw [hvalue] at hread
      rw [ok_bind]
      dsimp only
      split
      · exact Or.inl ⟨v, rfl, hread.2.1⟩
      · exact Or.inr (Or.inl ⟨_, _, rfl⟩)

/-! ### Numbers with too many digits -/

section Long

variable {d : Char} {ds : List Char}

theorem jsonWhole_eq_self (hdigits : ∀ c ∈ ds, c.isDigit = true) (hzero : ds.head? ≠ some '0') :
    jsonWhole ds = ds := by
  unfold jsonWhole
  split
  · exact absurd rfl hzero
  · exact List.takeWhile_eq_self_iff.mpr hdigits

theorem skipBlanks_of_isDigit {offset : Nat} (hd : d.isDigit = true) :
    (JsonCursor.mk offset (d :: ds)).skipBlanks = ⟨offset, d :: ds⟩ := by
  have hblank : ¬ (d = ' ' ∨ d = '\t' ∨ d = '\n' ∨ d = '\r') := by
    rintro (rfl | rfl | rfl | rfl) <;> exact absurd hd (by decide)
  simp only [not_or] at hblank
  simp [JsonCursor.skipBlanks, JsonCursor.skip, hblank]

/-- No word begins with a digit. -/
theorem find?_jsonWords_of_isDigit (hd : d.isDigit = true) :
    (jsonWords.find? fun w => w.1.toList.isPrefixOf (d :: ds)) = none := by
  have hhead : ∀ w ∈ jsonWords, ∃ c cs, w.1.toList = c :: cs ∧ c.isDigit = false := by
    intro w hw
    simp only [jsonWords, List.mem_cons, List.not_mem_nil, or_false] at hw
    rcases hw with rfl | rfl | rfl | rfl | rfl | rfl <;> exact ⟨_, _, rfl, rfl⟩
  rw [List.find?_eq_none]
  intro w hw hfront
  obtain ⟨c, cs, hword, hc⟩ := hhead w hw
  rw [hword, List.isPrefixOf_iff_prefix, List.cons_prefix_cons] at hfront
  rw [hfront.1, hd] at hc
  cases hc

/-- Where a digit stands, there is a number. -/
theorem readJsonValue_of_isDigit (hd : d.isDigit = true) (fuel offset : Nat) :
    readJsonValue (fuel + 1) ⟨offset, d :: ds⟩ = readJsonNumber ⟨offset, d :: ds⟩ := by
  rw [readJsonValue]
  split
  · next heq =>
    cases heq
    exact absurd hd (by decide)
  · next heq =>
    cases heq
    exact absurd hd (by decide)
  · next heq =>
    cases heq
    exact absurd hd (by decide)
  · rw [find?_jsonWords_of_isDigit hd]

/-- Digits up to the end of the text are one number. -/
theorem readJsonNumber_eq_tooManyDigits (hdigits : ∀ c ∈ ds, c.isDigit = true)
    (hzero : ds.head? ≠ some '0') (hlong : integerDigitLimit < ds.length) (offset : Nat) :
    readJsonNumber ⟨offset, ds⟩ = .error .tooManyDigits := by
  have hne : ds ≠ [] := by
    rintro rfl
    exact absurd hlong (Nat.not_lt_zero _)
  have hminus : ds.head? ≠ some '-' := by
    intro h
    exact absurd (hdigits '-' (List.mem_of_mem_head? h)) (by decide)
  have hread := readInteger_digits hne
    (fun c hc => isDecimalDigit_of_isDigit (hdigits c hc)) false
  rw [if_pos hlong, if_neg Bool.false_ne_true, List.nil_append] at hread
  simp [readJsonNumber, hminus, jsonWhole_eq_self hdigits hzero, hne, jsonFraction, jsonExponent,
    hread]

/-- Digits without a zero in front are a number with too many of them, if there are. -/
theorem readJson_eq_tooManyDigits (hdigits : ∀ c ∈ ds, c.isDigit = true)
    (hzero : ds.head? ≠ some '0') (hlong : integerDigitLimit < ds.length) :
    readJson ds = .error .tooManyDigits := by
  cases ds with
  | nil => exact absurd hlong (Nat.not_lt_zero _)
  | cons d ds =>
    have hd := hdigits d (by simp)
    have hmark : (d :: ds).head? ≠ some (Char.ofNat 0xfeff) := by
      intro h
      cases h
      exact absurd hd (by decide)
    rw [readJson, if_neg hmark, skipBlanks_of_isDigit hd, readJsonValue_of_isDigit hd,
      readJsonNumber_eq_tooManyDigits hdigits hzero hlong, error_bind]

end Long

end Destructure
