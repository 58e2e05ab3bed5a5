/-
  Destructure/Proofs/Diagnostic/Underline.lean
  ============================================
  **The row of carets** — a diagnostic that has a place shows the line on which the place
  starts and, in the row below, a caret under each of its characters on that line. The
  number of the line, its beginning, the width of the gutter and the number of carets are
  computed one by one; here they are brought together, column by column.
-/
import Mathlib.Data.List.Basic
import Destructure.Proofs.Diagnostic.Rows
import Destructure.Proofs.Text.Lines

namespace Destructure

/-! ### Columns of rows -/

theorem bar_notMem_toString (n : Nat) : '|' ∉ (toString n).toList :=
  fun hmem => absurd (isDigit_of_mem_toString hmem) (by decide)

/-- A row of one character is found where it has been put, and nowhere in front. -/
theorem getElem?_append_replicate_iff {xs : List Char} {c : Char} (h : c ∉ xs) (n p : Nat) :
    (xs ++ List.replicate n c)[p]? = some c ↔ xs.length ≤ p ∧ p < xs.length + n := by
  by_cases hp : p < xs.length
  · rw [List.getElem?_append_left hp]
    constructor
    · intro hc
      exact absurd (List.mem_of_getElem? hc) h
    · intro hbounds
      omega
  · rw [List.getElem?_append_right (Nat.not_lt.mp hp), List.getElem?_replicate]
    constructor
    · intro hc
      split at hc
      · omega
      · cases hc
    · rintro ⟨-, hstop⟩
      exact if_pos (by omega)

/-- Where a row has its first vertical bar. -/
def barColumn (shown : String) : Nat := shown.toList.idxOf '|'

theorem barColumn_of_notMem {xs : List Char} (h : '|' ∉ xs) {shown : String} {ys : List Char}
    (hshown : shown.toList = xs ++ '|' :: ys) : barColumn shown = xs.length := by
  rw [barColumn, hshown, List.idxOf_append_of_notMem h, List.idxOf_cons_self]
  rfl

/-! ### The rows of a place -/

namespace Span

def gutterRow (s : Span) : String := row (s.gutter + 1) ' ' ++ "|"

def sourceRow (s : Span) : String := toString s.line ++ " | " ++ String.ofList s.sourceLine

def caretRow (s : Span) : String := row (s.gutter + 1) ' ' ++ "| " ++ s.carets

theorem toList_gutterRow (s : Span) :
    s.gutterRow.toList = List.replicate (s.gutter + 1) ' ' ++ ['|'] := by
  rw [gutterRow, String.toList_append, toList_row]
  rfl

theorem toList_sourceRow (s : Span) :
    s.sourceRow.toList = ((toString s.line).toList ++ [' ']) ++ '|' :: ' ' :: s.sourceLine := by
  rw [sourceRow, String.toList_append, String.toList_append,
    String.toList_ofList (l := s.sourceLine), List.append_assoc, List.append_assoc]
  rfl

theorem toList_caretRow (s : Span) :
    s.caretRow.toList = List.replicate (s.gutter + 1) ' ' ++ '|' :: ' ' ::
      (List.replicate (s.column - 1).toNat ' ' ++ List.replicate s.caretCount '^') := by
  rw [caretRow, carets, String.toList_append, String.toList_append, String.toList_append,
    toList_row, toList_row, toList_row, List.append_assoc]
  rfl

theorem length_toString_line (s : Span) : (toString s.line).toList.length = s.gutter :=
  String.length_toList

/-- However many digits the number of the line has, the bars stand in one column. -/
theorem barColumn_eq (s : Span) :
    barColumn s.gutterRow = s.gutter + 1 ∧ barColumn s.sourceRow = s.gutter + 1 ∧
      barColumn s.caretRow = s.gutter + 1 := by
  have hblank : '|' ∉ List.replicate (s.gutter + 1) ' ' := by simp
  have hnumber : '|' ∉ (toString s.line).toList ++ [' '] := by
    rw [List.mem_append, not_or]
    exact ⟨bar_notMem_toString s.line, by decide⟩
  refine ⟨?_, ?_, ?_⟩
  · rw [barColumn_of_notMem hblank s.toList_gutterRow, List.length_replicate]
  · rw [barColumn_of_notMem hnumber s.toList_sourceRow, List.length_append,
      length_toString_line]
    rfl
  · rw [barColumn_of_notMem hblank s.toList_caretRow, List.length_replicate]

/-- Behind the bar and a blank, the row of the line shows the line from its beginning. -/
theorem getElem?_sourceRow (s : Span) (j : Nat) :
    s.sourceRow.toList[s.gutter + 1 + 2 + j]? = s.sourceLine[j]? := by
  have hfront : s.sourceRow.toList =
      ((toString s.line).toList ++ [' ', '|', ' ']) ++ s.sourceLine := by
    rw [toList_sourceRow, List.append_assoc, List.append_assoc]
    rfl
  have hlength : ((toString s.line).toList ++ [' ', '|', ' ']).length = s.gutter + 1 + 2 := by
    rw [List.length_append, length_toString_line]
    rfl
  rw [hfront, List.getElem?_append_right (by omega), hlength, Nat.add_sub_cancel_left]

/-- Carets are in the row of carets only, one behind the other. -/
theorem getElem?_caretRow (s : Span) (p : Nat) :
    s.caretRow.toList[p]? = some '^' ↔ s.gutter + 1 + 2 + (s.column - 1).toNat ≤ p ∧
      p < s.gutter + 1 + 2 + (s.column - 1).toNat + s.caretCount := by
  have hfront : s.caretRow.toList = (List.replicate (s.gutter + 1) ' ' ++ ['|', ' '] ++
      List.replicate (s.column - 1).toNat ' ') ++ List.replicate s.caretCount '^' := by
    rw [toList_caretRow, List.append_assoc, List.append_assoc]
    rfl
  have hlength : (List.replicate (s.gutter + 1) ' ' ++ ['|', ' '] ++
      List.replicate (s.column - 1).toNat ' ').length =
      s.gutter + 1 + 2 + (s.column - 1).toNat := by
    rw [List.length_append, List.length_append, List.length_replicate, List.length_replicate]
    rfl
  rw [hfront, getElem?_append_replicate_iff (by simp), hlength]

end Span

/-! ### What stands below the line -/

/-- What the rows of a span show: the first vertical bars stand in one column, the line
    stands two columns behind its bar, and the carets stand below the characters of the span
    that are on the line, one below its first character always. The line begins at the
    offset. -/
structure Span.Underlines (s : Span) (offset : Nat) (line : List Char) : Prop where
  bars : barColumn s.gutterRow = s.gutter + 1 ∧ barColumn s.sourceRow = s.gutter + 1 ∧
    barColumn s.caretRow = s.gutter + 1
  source : s.sourceRow = toString s.line ++ " | " ++ String.ofList line
  above : ∀ o, offset ≤ o → s.sourceRow.toList[s.gutter + 1 + 2 + (o - offset)]? =
    if o < offset + line.length then s.source.toList[o]? else none
  carets : ∀ p, s.caretRow.toList[p]? = some '^' ↔ ∃ o : Nat, s.start ≤ o ∧
    (o : Int) < max (s.start + 1) (min s.stop (offset + line.length)) ∧
    p = s.gutter + 1 + 2 + (o - offset)

theorem Span.StartsOn.underlines {s : Span} {earlier : List (List Char)} {line rest : List Char}
    (h : s.StartsOn earlier line rest) (hstop : s.start ≤ s.stop) :
    s.Underlines (closedLines earlier).length line := by
  have hpos := h.1
  have hlies := h.2
  have hstart := hlies.start_le
  have hend := hlies.le_stop
  refine ⟨s.barColumn_eq, ?_, ?_, ?_⟩
  · rw [sourceRow, h.sourceLine_eq]
  · intro o ho
    rw [getElem?_sourceRow, h.sourceLine_eq, hlies.text, List.getElem?_append_right ho]
    by_cases hline : o < (closedLines earlier).length + line.length
    · rw [if_pos hline, List.getElem?_append_left (by omega)]
    · rw [if_neg hline, List.getElem?_eq_none (by omega)]
  · intro p
    rw [getElem?_caretRow, caretCount, h.sourceLine_eq, h.column_eq]
    constructor
    · rintro ⟨hfrom, hto⟩
      refine ⟨p - (s.gutter + 1 + 2) + (closedLines earlier).length, ?_, ?_, ?_⟩ <;> omega
    · rintro ⟨o, hfrom, hto, rfl⟩
      omega

/-! ### Diagnostics with a place -/

theorem Diagnostic.write_of_span {d : Diagnostic} {s : Span} (h : d.span = some s) :
    d.write false = "\n".intercalate ([writeRow false d.heading,
      row s.gutter ' ' ++ "--> " ++ (d.sourceName ++ ":" ++ s.position), s.gutterRow, s.sourceRow,
      s.caretRow ++ d.labelText] ++ (d.remarks s.gutter).map (writeRow false)) := by
  rw [write, writeLines_eq, fragments, h]
  simp only [List.map_append, List.map_cons, List.map_nil, writeRow_single, writeRow_pair,
    Fragment.write_false, Fragment.plain, Span.gutterRow, Span.sourceRow, Span.caretRow,
    String.append_assoc]
  rfl

/-- A diagnostic whose place starts in its text and does not end before it starts shows the
    line on which the place starts, under its number and with the column of the place: in
    front of the place are the earlier lines, and one character less than the column says.
    The bars of the three rows stand in one column, and carets stand exactly under the
    characters of the place that are on the line, under its first character always. -/
theorem carets_underline_span (d : Diagnostic) (s : Span) (hspan : d.span = some s)
    (hstart : 0 ≤ s.start) (hsource : s.start ≤ s.source.toList.length)
    (hstop : s.start ≤ s.stop) :
    d.write false = "\n".intercalate ([writeRow false d.heading,
        row s.gutter ' ' ++ "--> " ++
          (d.sourceName ++ ":" ++ (toString s.line ++ ":" ++ toString s.column)),
        s.gutterRow, s.sourceRow, s.caretRow ++ d.labelText] ++
          (d.remarks s.gutter).map (writeRow false)) ∧
      ∃ earlier line rest, s.StartsOn earlier line rest ∧ s.line = earlier.length + 1 ∧
        s.start = (closedLines earlier).length + (s.column - 1) ∧
        s.Underlines (closedLines earlier).length line := by
  obtain ⟨earlier, line, rest, h⟩ := Span.exists_startsOn hstart hsource
  have hcolumn := h.column_eq
  exact ⟨Diagnostic.write_of_span hspan, earlier, line, rest, h, h.line_eq, by omega,
    h.underlines hstop⟩

/-- A place that starts on the second line of three and ends on the third is underlined to
    the end of the second. -/
theorem carets_underline_span_two_lines :
    let s : Span := ⟨"[a,\n *b,\n c]", 5, 11⟩
    let d : Diagnostic := ⟨"m", some s, none, none, none, some "here", "<pattern>"⟩
    d.write false = "error: m\n --> <pattern>:2:2\n  |\n2 |  *b,\n  |  ^^^ here" ∧
      ∃ earlier line rest, s.StartsOn earlier line rest ∧
        s.Underlines (closedLines earlier).length line := by
  intro s d
  have hplaces : 0 ≤ s.start ∧ s.start ≤ s.source.toList.length ∧ s.start ≤ s.stop := by decide
  obtain ⟨hstart, hsource, hstop⟩ := hplaces
  obtain ⟨-, earlier, line, rest, h, -, -, hunderlines⟩ :=
    carets_underline_span d s rfl hstart hsource hstop
  exact ⟨by decide +kernel, earlier, line, rest, h, hunderlines⟩

end Destructure
