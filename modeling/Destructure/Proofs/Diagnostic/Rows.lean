/-
  Destructure/Proofs/Diagnostic/Rows.lean
  =======================================
  **Rows of fragments** — a diagnostic is written row by row with a newline between, and so
  is a report: an empty row stands behind each diagnostic, and the last row counts them.
  Which characters come up in the rows is known from the texts that a diagnostic is made of:
  all others are printable, and no newline or escape character is one of them
  (`Diagnostic.madeOf_fragments`).
-/
import Mathlib.Data.List.Basic
import Destructure.Diagnostic.Report
import Destructure.Text.Quoted

namespace Destructure

/-! ### Rows -/

def writeRow (colour : Bool) (fragments : List Fragment) : String :=
  String.join (fragments.map (Fragment.write colour))

theorem Fragment.write_false (f : Fragment) : f.write false = f.text := rfl

theorem writeRow_single (colour : Bool) (f : Fragment) : writeRow colour [f] = f.write colour :=
  String.join_cons.trans String.append_empty

theorem writeRow_pair (colour : Bool) (f g : Fragment) :
    writeRow colour [f, g] = f.write colour ++ g.write colour := by
  rw [writeRow, List.map_cons, String.join_cons, ← writeRow, writeRow_single]

theorem writeLines_eq (colour : Bool) (rows : List (List Fragment)) :
    writeLines colour rows = "\n".intercalate (rows.map (writeRow colour)) := rfl

theorem writeLines_cons (colour : Bool) (fragments : List Fragment)
    {rows : List (List Fragment)} (h : rows ≠ []) :
    writeLines colour (fragments :: rows) =
      writeRow colour fragments ++ "\n" ++ writeLines colour rows := by
  rw [writeLines_eq, List.map_cons, String.intercalate_cons_of_ne_nil (by simpa using h),
    ← writeLines_eq]

theorem writeLines_append (colour : Bool) {rows rows' : List (List Fragment)}
    (h : rows ≠ []) (h' : rows' ≠ []) :
    writeLines colour (rows ++ rows') =
      writeLines colour rows ++ "\n" ++ writeLines colour rows' := by
  induction rows with
  | nil => exact absurd rfl h
  | cons fragments rows ih =>
    cases rows with
    | nil => exact writeLines_cons colour fragments h'
    | cons next rows =>
      have hne : next :: rows ≠ [] := List.cons_ne_nil _ _
      rw [List.cons_append, writeLines_cons colour fragments (by simp), ih hne,
        writeLines_cons colour fragments hne]
      simp only [String.append_assoc]

/-- Rows, each with a newline behind it. -/
def rowsBefore (colour : Bool) (rows : List (List Fragment)) : String :=
  String.join (rows.map fun fragments => writeRow colour fragments ++ "\n")

/-- Rows, each with a newline in front of it. -/
def rowsBehind (colour : Bool) (rows : List (List Fragment)) : String :=
  String.join (rows.map fun fragments => "\n" ++ writeRow colour fragments)

theorem writeLines_split (colour : Bool) (earlier : List (List Fragment))
    (fragments : List Fragment) (later : List (List Fragment)) :
    writeLines colour (earlier ++ fragments :: later) =
      rowsBefore colour earlier ++ writeRow colour fragments ++ rowsBehind colour later := by
  have hlast : writeLines colour (fragments :: later) =
      writeRow colour fragments ++ rowsBehind colour later := by
    induction later generalizing fragments with
    | nil => exact String.append_empty.symm
    | cons next later ih =>
      rw [writeLines_cons colour fragments (List.cons_ne_nil _ _), ih next, rowsBehind,
        rowsBehind, List.map_cons, String.join_cons]
      simp only [String.append_assoc]
  induction earlier with
  | nil => rw [List.nil_append, hlast, rowsBefore, List.map_nil, String.join_nil,
      String.empty_append]
  | cons first earlier ih =>
    rw [List.cons_append, writeLines_cons colour first (by simp), ih, rowsBefore, rowsBefore,
      List.map_cons, String.join_cons]
    simp only [String.append_assoc]

/-! ### Rows of a report -/

theorem Diagnostic.fragments_ne_nil (d : Diagnostic) : d.fragments ≠ [] := by
  cases h : d.span with
  | none => simp [fragments, h]
  | some s => simp [fragments, h]

/-- A report from top to bottom. -/
def Report.rows (r : Report) : List (List Fragment) :=
  r.diagnostics.flatMap (fun d => d.fragments ++ [[]]) ++ [r.summary]

/-- Two newlines are the same as an empty row between. -/
theorem Report.write_eq (r : Report) (colour : Bool) :
    r.write colour = writeLines colour r.rows := by
  have hdiagnostics : ∀ ds : List Diagnostic,
      "\n\n".intercalate (ds.map (Diagnostic.write colour) ++ [writeLines colour [r.summary]]) =
        writeLines colour (ds.flatMap (fun d => d.fragments ++ [[]]) ++ [r.summary]) := by
    intro ds
    induction ds with
    | nil => exact String.intercalate_singleton
    | cons d ds ih =>
      have hbehind : ([] : List Fragment) :: (ds.flatMap (fun d => d.fragments ++ [[]]) ++
          [r.summary]) ≠ [] := List.cons_ne_nil _ _
      rw [List.map_cons, List.cons_append, String.intercalate_cons_of_ne_nil (by simp), ih,
        List.flatMap_cons, List.append_assoc, List.append_assoc, List.singleton_append,
        writeLines_append colour d.fragments_ne_nil hbehind,
        writeLines_cons colour [] (by simp), Diagnostic.write]
      have hempty : writeRow colour [] = "" := rfl
      have hnewlines : "\n\n" = "\n" ++ "\n" := rfl
      rw [hempty, hnewlines, String.empty_append]
      simp only [String.append_assoc]
  exact hdiagnostics r.diagnostics

/-! ### Characters of rows -/

theorem toList_row (n : Nat) (c : Char) : (row n c).toList = List.replicate n c :=
  String.toList_ofList

theorem isDigit_of_mem_toString {n : Nat} {c : Char} (h : c ∈ (toString n).toList) :
    c.isDigit = true := by
  have hdigits : (toString n).toList = Nat.toDigits 10 n := String.toList_ofList
  rw [hdigits] at h
  exact Nat.isDigit_of_mem_toDigits (by decide) (by decide) h

theorem mem_of_mem_splitOnP {α : Type} {p : α → Bool} {xs l : List α} {x : α}
    (hl : l ∈ xs.splitOnP p) (hx : x ∈ l) : x ∈ xs := by
  induction xs generalizing l with
  | nil =>
    rw [List.splitOnP_nil, List.mem_singleton] at hl
    rw [hl] at hx
    exact hx
  | cons y ys ih =>
    rw [List.splitOnP_cons_eq_if_modifyHead] at hl
    by_cases hy : p y = true
    · rw [if_pos hy, List.mem_cons] at hl
      rcases hl with rfl | hl
      · cases hx
      · exact List.mem_cons_of_mem y (ih hl hx)
    · rw [if_neg hy] at hl
      cases hys : ys.splitOnP p with
      | nil => exact absurd hys (List.splitOnP_ne_nil p ys)
      | cons first rest =>
        rw [hys] at ih
        rw [hys, List.modifyHead_cons, List.mem_cons] at hl
        rcases hl with rfl | hl
        · rcases List.mem_cons.mp hx with rfl | hx
          · exact List.mem_cons_self
          · exact List.mem_cons_of_mem y (ih List.mem_cons_self hx)
        · exact List.mem_cons_of_mem y (ih (List.mem_cons_of_mem first hl) hx)

/-- What is put around texts has no other characters. -/
def isLayout (c : Char) : Bool := isPrintableByte c.toNat

/-- Each character is one of the layout or comes from one of the texts. -/
def MadeOf (texts : List String) (s : String) : Prop :=
  ∀ c ∈ s.toList, isLayout c = true ∨ ∃ t ∈ texts, c ∈ t.toList

namespace MadeOf

variable {texts : List String} {s s' : String}

theorem layout (h : s.toList.all isLayout = true) : MadeOf texts s :=
  fun c hc => Or.inl (List.all_eq_true.mp h c hc)

theorem of_mem (h : s ∈ texts) : MadeOf texts s := fun _ hc => Or.inr ⟨s, h, hc⟩

theorem mono {texts' : List String} (h : MadeOf texts s) (hsub : ∀ t ∈ texts, t ∈ texts') :
    MadeOf texts' s := by
  intro c hc
  rcases h c hc with hlayout | ⟨t, ht, hmem⟩
  · exact Or.inl hlayout
  · exact Or.inr ⟨t, hsub t ht, hmem⟩

theorem append (h : MadeOf texts s) (h' : MadeOf texts s') : MadeOf texts (s ++ s') := by
  intro c hc
  rw [String.toList_append, List.mem_append] at hc
  exact hc.elim (h c) (h' c)

theorem row (n : Nat) {c : Char} (hc : isLayout c = true) : MadeOf texts (row n c) := by
  intro c' hc'
  rw [toList_row, List.mem_replicate] at hc'
  rw [hc'.2]
  exact Or.inl hc

theorem natural (n : Nat) : MadeOf texts (toString n) := by
  intro c hc
  have hdigit := isDigit_of_mem_toString hc
  rw [Char.isDigit, Bool.and_eq_true, decide_eq_true_eq, decide_eq_true_eq] at hdigit
  obtain ⟨hfrom, hto⟩ := hdigit
  have hfrom' : 48 ≤ c.toNat := hfrom
  have hto' : c.toNat ≤ 57 := hto
  left
  rw [isLayout, isPrintableByte, Bool.and_eq_true, decide_eq_true_eq, decide_eq_true_eq]
  omega

theorem integer (i : Int) : MadeOf texts (toString i) := by
  cases i with
  | ofNat n => exact natural n
  | negSucc n => exact append (s := "-") (layout (by decide)) (natural (n + 1))

theorem sourceLine {p : Span} (h : p.source ∈ texts) :
    MadeOf texts (String.ofList p.sourceLine) := by
  intro c hc
  rw [String.toList_ofList, Span.sourceLine, List.getD_eq_getElem?_getD] at hc
  refine Or.inr ⟨p.source, h, ?_⟩
  cases hline : (p.source.toList.splitOnP (· == '\n'))[p.line - 1]? with
  | none =>
    rw [hline] at hc
    cases hc
  | some line =>
    rw [hline] at hc
    exact mem_of_mem_splitOnP (List.mem_of_getElem? hline) hc

end MadeOf

namespace Diagnostic

/-- The texts that a diagnostic is made of. -/
def texts (d : Diagnostic) : List String :=
  d.message :: d.sourceName ::
    ([d.code, d.help, d.note, d.label, d.span.map Span.source].filterMap id)

variable {d : Diagnostic}

theorem mem_texts_of_mem {remark : Option String} {text : String}
    (hremark : remark ∈ [d.code, d.help, d.note, d.label, d.span.map Span.source])
    (h : remark = some text) : text ∈ d.texts := by
  rw [texts]
  refine List.mem_cons_of_mem _ (List.mem_cons_of_mem _ ?_)
  rw [List.mem_filterMap]
  exact ⟨remark, hremark, h⟩

theorem eq_some_of_spoken {remark : Option String} {text : String}
    (h : spoken remark = some text) : remark = some text :=
  (Option.filter_eq_some_iff.mp h).1

theorem madeOf_heading {f : Fragment} (h : f ∈ d.heading) : MadeOf d.texts f.text := by
  rcases List.mem_pair.mp h with rfl | rfl
  · refine .append (.layout (by decide)) ?_
    cases hcode : spoken d.code with
    | none => exact .layout (by decide)
    | some code =>
      have hmem := mem_texts_of_mem (d := d) (by simp) (eq_some_of_spoken hcode)
      exact .append (.append (.layout (by decide)) (.of_mem hmem)) (.layout (by decide))
  · exact .append (.layout (by decide)) (.of_mem List.mem_cons_self)

theorem madeOf_remark {texts : List String} {gutter : Nat} {title text : String} {f : Fragment}
    (htitle : title.toList.all isLayout = true) (htext : text ∈ texts)
    (h : f ∈ remark gutter title text) : MadeOf texts f.text := by
  simp only [remark, List.mem_cons, List.not_mem_nil, or_false] at h
  rcases h with rfl | rfl | rfl
  · exact .append (.row _ (by decide)) (.layout (by decide))
  · exact .append (.layout htitle) (.layout (by decide))
  · exact .of_mem htext

theorem madeOf_remarks {gutter : Nat} {fragments : List Fragment} {f : Fragment}
    (hrow : fragments ∈ d.remarks gutter) (h : f ∈ fragments) : MadeOf d.texts f.text := by
  rw [remarks] at hrow
  split at hrow
  · cases hrow
  · simp only [List.mem_cons, List.mem_append, List.mem_map, Option.mem_toList] at hrow
    rcases hrow with rfl | ⟨help, hhelp, rfl⟩ | ⟨note, hnote, rfl⟩
    · rw [List.mem_singleton] at h
      rw [h]
      exact .append (.row _ (by decide)) (.layout (by decide))
    · exact madeOf_remark (by decide) (mem_texts_of_mem (by simp) (eq_some_of_spoken hhelp)) h
    · exact madeOf_remark (by decide) (mem_texts_of_mem (by simp) (eq_some_of_spoken hnote)) h

theorem madeOf_unplaced {f : Fragment}
    (h : f ∈ [⟨[.bold, .blue], " --> "⟩, Fragment.plain "<unknown location>"]) :
    MadeOf d.texts f.text := by
  rcases List.mem_pair.mp h with rfl | rfl
  · exact .layout (by decide)
  · exact .layout (by decide)

/-- The label stands behind the carets and a blank. -/
def labelText (d : Diagnostic) : String :=
  match spoken d.label with
  | some l => " " ++ l
  | none => ""

theorem madeOf_labelText : MadeOf d.texts d.labelText := by
  rw [labelText]
  cases hlabel : spoken d.label with
  | none => exact .layout (by decide)
  | some label =>
    exact .append (.layout (by decide))
      (.of_mem (mem_texts_of_mem (by simp) (eq_some_of_spoken hlabel)))

/-- What a diagnostic shows comes from its texts, or is layout. -/
theorem madeOf_fragments {fragments : List Fragment} {f : Fragment}
    (hrow : fragments ∈ d.fragments) (h : f ∈ fragments) : MadeOf d.texts f.text := by
  rw [Diagnostic.fragments] at hrow
  cases hspan : d.span with
  | none =>
    simp only [hspan, List.cons_append, List.nil_append, List.mem_cons] at hrow
    rcases hrow with rfl | rfl | hrow
    · exact madeOf_heading h
    · exact madeOf_unplaced h
    · exact madeOf_remarks hrow h
  | some s =>
    have hmap : d.span.map Span.source = some s.source := by rw [hspan, Option.map_some]
    have hsource : s.source ∈ d.texts := mem_texts_of_mem (by simp) hmap
    simp only [hspan, List.cons_append, List.nil_append, List.mem_cons] at hrow
    have hblank : isLayout ' ' = true := by decide
    rcases hrow with rfl | rfl | rfl | rfl | rfl | hrow
    · exact madeOf_heading h
    · rcases List.mem_pair.mp h with rfl | rfl
      · exact .append (.row _ hblank) (.layout (by decide))
      · exact .append (.append (.of_mem (List.mem_cons_of_mem _ List.mem_cons_self))
          (.layout (by decide))) (.append (.append (.natural _) (.layout (by decide)))
            (.integer _))
    · rw [List.mem_singleton] at h
      rw [h]
      exact .append (.row _ hblank) (.layout (by decide))
    · rcases List.mem_pair.mp h with rfl | rfl
      · exact .append (.natural _) (.layout (by decide))
      · exact .sourceLine hsource
    · rcases List.mem_pair.mp h with rfl | rfl
      · exact .append (.row _ hblank) (.layout (by decide))
      · exact .append (.append (.row _ hblank) (.row _ (by decide))) madeOf_labelText
    · exact madeOf_remarks hrow h

end Diagnostic

/-- What a report shows comes from the texts of its diagnostics, or is layout. -/
theorem Report.madeOf_rows {r : Report} {fragments : List Fragment} {f : Fragment}
    (hrow : fragments ∈ r.rows) (h : f ∈ fragments) :
    MadeOf (r.diagnostics.flatMap Diagnostic.texts) f.text := by
  rw [Report.rows, List.mem_append, List.mem_flatMap, List.mem_singleton] at hrow
  rcases hrow with ⟨d, hd, hrow⟩ | rfl
  · rw [List.mem_append, List.mem_singleton] at hrow
    rcases hrow with hrow | rfl
    · exact (Diagnostic.madeOf_fragments hrow h).mono fun t ht => List.mem_flatMap.mpr ⟨d, hd, ht⟩
    · cases h
  · rcases List.mem_pair.mp h with rfl | rfl
    · exact .layout (by decide)
    · refine .append (.append (.append (.layout (by decide)) (.natural _))
        (.layout (by decide))) (.layout ?_)
      split
      · decide
      · decide

end Destructure
