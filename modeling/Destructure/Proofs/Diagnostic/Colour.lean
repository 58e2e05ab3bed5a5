/-
  Destructure/Proofs/Diagnostic/Colour.lean
  =========================================
  **Colour on a terminal** — a terminal shows the characters that it is sent, and takes
  every sequence of an escape character, a bracket, parameters and an `m` for a change of
  its style. A coloured report has such sequences around its fragments and is the plain
  report without them: each fragment turns off what it has turned on (`Fragment.colours`),
  and this is carried through rows, diagnostics and the whole report.
-/
import Destructure.Proofs.Diagnostic.Rows

namespace Destructure

/-! ### What a terminal is sent -/

/-- A character to be shown, or a change of the style by parameters. -/
inductive Signal where
  | shown (c : Char)
  | styled (parameters : List Char)
deriving DecidableEq, Repr

def isParameter (c : Char) : Bool := c.isDigit || c == ';'

/-- The parameters of the style sequence in front, if there is one, and what is behind it. -/
def takeStyle? : List Char → Option (List Char × List Char)
  | '\x1b' :: '[' :: cs =>
    match cs.dropWhile isParameter with
    | 'm' :: rest => some (cs.takeWhile isParameter, rest)
    | _ => none
  | _ => none

theorem takeStyle?_lt {cs parameters rest : List Char}
    (h : takeStyle? cs = some (parameters, rest)) : rest.length < cs.length := by
  unfold takeStyle? at h
  split at h
  · next cs =>
    split at h
    · next rest' hrest =>
      cases h
      have hle := (List.dropWhile_sublist isParameter (l := cs)).length_le
      rw [hrest, List.length_cons] at hle
      simp only [List.length_cons]
      omega
    · cases h
  · cases h

def signals (cs : List Char) : List Signal :=
  match h : takeStyle? cs with
  | some (parameters, rest) =>
    have := takeStyle?_lt h
    .styled parameters :: signals rest
  | none =>
    match cs with
    | [] => []
    | c :: cs => .shown c :: signals cs
termination_by cs.length

def Signal.character? : Signal → Option Char
  | shown c => some c
  | styled _ => none

/-- The text without its style sequences. -/
def eraseStyles (s : String) : String :=
  String.ofList ((signals s.toList).filterMap Signal.character?)

/-- Parameters are codes between semicolons; zero, and a code left out, turns everything
    off, any other code is in force until then. -/
def Signal.apply (active : List (List Char)) : Signal → List (List Char)
  | shown _ => active
  | styled parameters =>
    (parameters.splitOnP (· == ';')).foldl
      (fun active code => if code.all (· == '0') then [] else active ++ [code]) active

/-- The codes that are in force behind the text. -/
def activeStyle (s : String) : List (List Char) := (signals s.toList).foldl Signal.apply []

/-! ### Signals of texts -/

theorem takeStyle?_eq_none {c : Char} (hc : c ≠ '\x1b') (cs : List Char) :
    takeStyle? (c :: cs) = none := by
  unfold takeStyle?
  split
  · next heq => exact absurd (List.cons.inj heq).1 hc
  · rfl

theorem takeStyle?_sequence {parameters : List Char}
    (h : parameters.all isParameter = true) (cs : List Char) :
    takeStyle? ('\x1b' :: '[' :: (parameters ++ 'm' :: cs)) = some (parameters, cs) := by
  rw [List.all_eq_true] at h
  have hm : isParameter 'm' = false := by decide
  rw [takeStyle?, List.dropWhile_append_of_pos h, List.takeWhile_append_of_pos h,
    List.dropWhile_cons_of_neg (by simp [hm]), List.takeWhile_cons_of_neg (by simp [hm]),
    List.append_nil]
  rfl

theorem signals_nil : signals [] = [] := by
  rw [signals]
  rfl

theorem signals_cons {c : Char} (hc : c ≠ '\x1b') (cs : List Char) :
    signals (c :: cs) = .shown c :: signals cs := by
  rw [signals]
  split
  · next h =>
    rw [takeStyle?_eq_none hc] at h
    cases h
  · rfl

theorem signals_append {cs : List Char} (h : '\x1b' ∉ cs) (cs' : List Char) :
    signals (cs ++ cs') = cs.map Signal.shown ++ signals cs' := by
  induction cs with
  | nil => rfl
  | cons c cs ih =>
    rw [List.mem_cons, not_or] at h
    rw [List.cons_append, signals_cons (Ne.symm h.1), ih h.2, List.map_cons, List.cons_append]

theorem signals_sequence {number : String} (h : number.toList.all isParameter = true)
    (cs : List Char) :
    signals ((escapeSequence number).toList ++ cs) =
      .styled number.toList :: signals cs := by
  have hlist : (escapeSequence number).toList ++ cs =
      '\x1b' :: '[' :: (number.toList ++ 'm' :: cs) := by
    rw [escapeSequence, String.toList_append, String.toList_append, List.append_assoc,
      List.append_assoc]
    rfl
  rw [hlist, signals]
  split
  · next heq =>
    rw [takeStyle?_sequence h] at heq
    cases heq
    rfl
  · next heq =>
    rw [takeStyle?_sequence h] at heq
    cases heq

/-! ### Styles that are turned off again -/

/-- Each style that is turned on is turned off by the next sequence, the reset. -/
inductive Closed : List Signal → Prop
  | nil : Closed []
  | shown (c : Char) {ss : List Signal} : Closed ss → Closed (.shown c :: ss)
  | styled (style : List Attribute) (text : List Char) {ss : List Signal} : style ≠ [] →
      Closed ss → Closed (style.map (fun a => .styled a.number.toList) ++
        (text.map .shown ++ .styled ['0'] :: ss))

namespace Closed

variable {ss ss' : List Signal}

theorem append (h : Closed ss) (h' : Closed ss') : Closed (ss ++ ss') := by
  induction h with
  | nil => exact h'
  | shown c _ ih => exact .shown c ih
  | styled style text hstyle _ ih =>
    rw [List.append_assoc, List.append_assoc, List.cons_append]
    exact .styled style text hstyle ih

theorem map_shown (text : List Char) : Closed (text.map Signal.shown) := by
  induction text with
  | nil => exact .nil
  | cons c text ih => exact .shown c ih

/-- Behind signals that are closed nothing is in force. -/
theorem foldl_apply (h : Closed ss) : ss.foldl Signal.apply [] = [] := by
  induction h with
  | nil => rfl
  | shown c _ ih => exact ih
  | styled style text _ _ ih =>
    -- the reset clears whatever the attributes have turned on
    have hreset : ∀ active, Signal.apply active (.styled ['0']) = [] := fun _ => rfl
    rw [List.foldl_append, List.foldl_append, List.foldl_cons, hreset, ih]

end Closed

/-! ### Coloured texts -/

/-- The first text is the second one with styles, and turns off what it turns on. -/
def Colours (coloured plain : String) : Prop :=
  ∃ ss, Closed ss ∧ ss.filterMap Signal.character? = plain.toList ∧
    ∀ cs, signals (coloured.toList ++ cs) = ss ++ signals cs

theorem filterMap_map_shown (text : List Char) :
    (text.map Signal.shown).filterMap Signal.character? = text := by
  rw [List.filterMap_map]
  exact List.filterMap_some

namespace Colours

variable {coloured plain coloured' plain' : String}

theorem of_plain (h : '\x1b' ∉ plain.toList) : Colours plain plain :=
  ⟨_, .map_shown plain.toList, filterMap_map_shown _, signals_append h⟩

theorem append (h : Colours coloured plain) (h' : Colours coloured' plain') :
    Colours (coloured ++ coloured') (plain ++ plain') := by
  obtain ⟨ss, hclosed, hshown, hsignals⟩ := h
  obtain ⟨ss', hclosed', hshown', hsignals'⟩ := h'
  refine ⟨ss ++ ss', hclosed.append hclosed', ?_, ?_⟩
  · rw [List.filterMap_append, hshown, hshown', String.toList_append]
  · intro cs
    rw [String.toList_append, List.append_assoc, hsignals, hsignals', List.append_assoc]

theorem join {α : Type} {write write' : α → String} {xs : List α}
    (h : ∀ x ∈ xs, Colours (write x) (write' x)) :
    Colours (String.join (xs.map write)) (String.join (xs.map write')) := by
  induction xs with
  | nil =>
    have hempty : '\x1b' ∉ "".toList := by decide
    exact of_plain hempty
  | cons x xs ih =>
    rw [List.forall_mem_cons] at h
    rw [List.map_cons, List.map_cons, String.join_cons, String.join_cons]
    exact h.1.append (ih h.2)

theorem signals_eq (h : Colours coloured plain) :
    Closed (signals coloured.toList) ∧
      (signals coloured.toList).filterMap Signal.character? = plain.toList := by
  obtain ⟨ss, hclosed, hshown, hsignals⟩ := h
  have hall := hsignals []
  rw [List.append_nil, signals_nil, List.append_nil] at hall
  rw [hall]
  exact ⟨hclosed, hshown⟩

theorem eraseStyles_eq (h : Colours coloured plain) : eraseStyles coloured = plain := by
  rw [eraseStyles, h.signals_eq.2, String.ofList_toList]

theorem activeStyle_eq (h : Colours coloured plain) : activeStyle coloured = [] :=
  h.signals_eq.1.foldl_apply

end Colours

/-! ### Coloured fragments -/

theorem Attribute.isParameter_number (a : Attribute) :
    a.number.toList.all isParameter = true := by
  cases a with
  | bold => decide
  | red => decide
  | blue => decide
  | cyan => decide

theorem signals_attributes (style : List Attribute) (cs : List Char) :
    signals ((String.join (style.map fun a => escapeSequence a.number)).toList ++ cs) =
      style.map (fun a => .styled a.number.toList) ++ signals cs := by
  induction style with
  | nil => rfl
  | cons a style ih =>
    rw [List.map_cons, String.join_cons, String.toList_append, List.append_assoc,
      signals_sequence a.isParameter_number, ih, List.map_cons, List.cons_append]

/-- A fragment shows its text, and turns off what it turns on. -/
theorem Fragment.colours {f : Fragment} (h : '\x1b' ∉ f.text.toList) :
    Colours (f.write true) (f.write false) := by
  cases hstyle : f.style.isEmpty with
  | true =>
    have hplain : f.write true = f.text := by
      rw [write, hstyle]
      rfl
    rw [hplain]
    exact .of_plain h
  | false =>
    have hstyled : f.write true = String.join (f.style.map fun a => escapeSequence a.number) ++
        f.text ++ resetSequence := by
      rw [write, hstyle]
      rfl
    rw [hstyled]
    refine ⟨_, .styled f.style f.text.toList (by simpa using hstyle) .nil, ?_, ?_⟩
    · have hnone : (f.style.map fun a => Signal.styled a.number.toList).filterMap
          Signal.character? = [] := by
        simp [Signal.character?]
      rw [List.filterMap_append, hnone, List.filterMap_append, filterMap_map_shown]
      exact List.append_nil _
    · intro cs
      have hreset : "0".toList.all isParameter = true := by decide
      rw [String.toList_append, String.toList_append, List.append_assoc, List.append_assoc,
        signals_attributes, signals_append h, resetSequence, signals_sequence hreset,
        List.append_assoc, List.append_assoc]
      rfl

section Rows

variable {fragments : List Fragment} {rows : List (List Fragment)}

theorem colours_writeRow (h : ∀ f ∈ fragments, '\x1b' ∉ f.text.toList) :
    Colours (writeRow true fragments) (writeRow false fragments) :=
  .join fun f hf => Fragment.colours (h f hf)

theorem colours_rowsBefore (h : ∀ fragments ∈ rows, ∀ f ∈ fragments, '\x1b' ∉ f.text.toList) :
    Colours (rowsBefore true rows) (rowsBefore false rows) :=
  .join fun fragments hrow => (colours_writeRow (h fragments hrow)).append (.of_plain (by decide))

theorem colours_rowsBehind (h : ∀ fragments ∈ rows, ∀ f ∈ fragments, '\x1b' ∉ f.text.toList) :
    Colours (rowsBehind true rows) (rowsBehind false rows) :=
  .join fun fragments hrow =>
    Colours.append (.of_plain (by decide)) (colours_writeRow (h fragments hrow))

/-- Sequences have no newlines in them. -/
theorem newline_notMem_write {f : Fragment} (h : '\n' ∉ f.text.toList) (colour : Bool) :
    '\n' ∉ (f.write colour).toList := by
  have hattribute : ∀ a : Attribute, '\n' ∉ (escapeSequence a.number).toList := by
    intro a
    cases a with
    | bold => decide
    | red => decide
    | blue => decide
    | cyan => decide
  have hreset : '\n' ∉ resetSequence.toList := by decide
  rw [Fragment.write]
  split
  · simp only [String.toList_append, String.toList_join, List.mem_append, List.mem_flatMap,
      List.mem_map, not_or]
    refine ⟨⟨?_, h⟩, hreset⟩
    rintro ⟨_, ⟨a, -, rfl⟩, hmem⟩
    exact hattribute a hmem
  · exact h

theorem newline_notMem_writeRow (h : ∀ f ∈ fragments, '\n' ∉ f.text.toList) (colour : Bool) :
    '\n' ∉ (writeRow colour fragments).toList := by
  rw [writeRow, String.toList_join, List.mem_flatMap]
  rintro ⟨_, hwritten, hmem⟩
  rw [List.mem_map] at hwritten
  obtain ⟨f, hf, rfl⟩ := hwritten
  exact newline_notMem_write (h f hf) colour hmem

end Rows

/-! ### Coloured reports -/

theorem Report.escape_notMem_rows {r : Report}
    (h : ∀ d ∈ r.diagnostics, ∀ t ∈ d.texts, '\x1b' ∉ t.toList) :
    ∀ fragments ∈ r.rows, ∀ f ∈ fragments, '\x1b' ∉ f.text.toList := by
  intro fragments hrow f hf hmem
  rcases Report.madeOf_rows hrow hf '\x1b' hmem with hlayout | ⟨t, ht, htext⟩
  · exact absurd hlayout (by decide)
  · obtain ⟨d, hd, htd⟩ := List.mem_flatMap.mp ht
    exact h d hd t htd htext

theorem Report.colours_write {r : Report}
    (h : ∀ d ∈ r.diagnostics, ∀ t ∈ d.texts, '\x1b' ∉ t.toList) :
    Colours (r.write true) (r.write false) := by
  have hrows := Report.escape_notMem_rows h
  obtain ⟨first, later, hsplit⟩ : ∃ first later, r.rows = first :: later :=
    List.exists_cons_of_ne_nil (by simp [Report.rows])
  rw [hsplit, List.forall_mem_cons] at hrows
  have hwrite : ∀ colour, r.write colour =
      rowsBefore colour [] ++ writeRow colour first ++ rowsBehind colour later := by
    intro colour
    rw [Report.write_eq, hsplit, ← writeLines_split, List.nil_append]
  rw [hwrite, hwrite]
  exact ((colours_rowsBefore (by simp)).append (colours_writeRow hrows.1)).append
    (colours_rowsBehind hrows.2)

/-- If no text of its diagnostics has an escape character, then a report in colour is the
    plain report with style sequences put in, and what one text turns on is turned off behind
    it, before anything else is shown or turned on. At the end of every row nothing is in
    force, and a row without a newline in its texts is one line. -/
theorem colour_adds_styles_only (r : Report)
    (h : ∀ d ∈ r.diagnostics, ∀ t ∈ d.texts, '\x1b' ∉ t.toList) :
    eraseStyles (r.write true) = r.write false ∧ Closed (signals (r.write true).toList) ∧
      ∀ earlier fragments later, r.rows = earlier ++ fragments :: later →
        r.write true =
          rowsBefore true earlier ++ writeRow true fragments ++ rowsBehind true later ∧
        activeStyle (rowsBefore true earlier ++ writeRow true fragments) = [] ∧
        ((∀ f ∈ fragments, '\n' ∉ f.text.toList) →
          '\n' ∉ (writeRow true fragments).toList) := by
  have hcolours := Report.colours_write h
  refine ⟨hcolours.eraseStyles_eq, hcolours.signals_eq.1, ?_⟩
  intro earlier fragments later hsplit
  have hrows := Report.escape_notMem_rows h
  rw [hsplit, List.forall_mem_append, List.forall_mem_cons] at hrows
  refine ⟨?_, ?_, ?_⟩
  · rw [Report.write_eq, hsplit, writeLines_split]
  · exact ((colours_rowsBefore hrows.1).append (colours_writeRow hrows.2.1)).activeStyle_eq
  · exact fun hnewline => newline_notMem_writeRow hnewline true

/-- A diagnostic without a place, in colour. -/
theorem colour_adds_styles_only_unplaced :
    let r : Report := ⟨"<pattern>", [⟨"m", none, some "E", none, none, none, "<pattern>"⟩]⟩
    r.write true = "\x1b[1m\x1b[31merror[E]\x1b[0m\x1b[1m: m\x1b[0m\n" ++
        "\x1b[1m\x1b[34m --> \x1b[0m<unknown location>\n\n" ++
        "\x1b[1m\x1b[31merror\x1b[0m\x1b[1m: aborting due to 1 previous error\x1b[0m" ∧
      eraseStyles (r.write true) = "error[E]: m\n --> <unknown location>\n\n" ++
        "error: aborting due to 1 previous error" := by
  intro r
  obtain ⟨herase, -, -⟩ := colour_adds_styles_only r (by decide)
  refine ⟨by decide +kernel, ?_⟩
  rw [herase]
  decide +kernel

end Destructure
