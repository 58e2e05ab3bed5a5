/-
  Destructure/Proofs/Text/Lines.lean
  ==================================
  **Lines of a text** — a text is lines, each but the last one closed by a newline. Each
  offset lies on one of them; a newline lies on the line that it closes, and the end of the
  text on the last line. The line and the column of a span, and the line that is shown of
  its text, are computed apart from each other; all are read off the line on which the span
  starts (`Span.StartsOn`).
-/
import Mathlib.Data.List.TakeWhile
import Destructure.Diagnostic.Basic

namespace Destructure

/-! ### Offsets on lines -/

/-- Lines, each with the newline that closes it. -/
def closedLines (lines : List (List Char)) : List Char := lines.flatMap (· ++ ['\n'])

theorem closedLines_cons (l : List Char) (ls : List (List Char)) :
    closedLines (l :: ls) = l ++ '\n' :: closedLines ls := by
  rw [closedLines, List.flatMap_cons, List.append_assoc]
  rfl

/-- The text is the earlier lines, then a line that the offset lies on, and then either
    nothing or the newline that closes the line and what follows. -/
structure LiesOn (cs : List Char) (k : Nat) (earlier : List (List Char))
    (line rest : List Char) : Prop where
  text : cs = closedLines earlier ++ (line ++ rest)
  earlier_whole : ∀ l ∈ earlier, '\n' ∉ l
  line_whole : '\n' ∉ line
  rest_eq : rest = [] ∨ ∃ ds, rest = '\n' :: ds
  start_le : (closedLines earlier).length ≤ k
  le_stop : k ≤ (closedLines earlier).length + line.length

theorem liesOn_zero (cs : List Char) :
    LiesOn cs 0 [] (cs.takeWhile (· != '\n')) (cs.dropWhile (· != '\n')) := by
  refine ⟨List.takeWhile_append_dropWhile.symm, by simp, ?_, ?_, Nat.zero_le _, Nat.zero_le _⟩
  · intro hmem
    have hne := List.mem_takeWhile_imp hmem
    simp at hne
  · cases hrest : cs.dropWhile (· != '\n') with
    | nil => exact Or.inl rfl
    | cons c ds =>
      have hc := List.head_dropWhile_not (· != '\n') (l := cs) (by simp [hrest])
      simp only [hrest, List.head_cons, bne_eq_false_iff_eq] at hc
      exact Or.inr ⟨ds, by rw [hc]⟩

/-- Every offset in a text, the end of the text as well, lies on a line. -/
theorem exists_liesOn (cs : List Char) {k : Nat} (hk : k ≤ cs.length) :
    ∃ earlier line rest, LiesOn cs k earlier line rest := by
  induction cs generalizing k with
  | nil =>
    rw [Nat.le_zero.mp hk]
    exact ⟨_, _, _, liesOn_zero []⟩
  | cons c cs ih =>
    cases k with
    | zero => exact ⟨_, _, _, liesOn_zero (c :: cs)⟩
    | succ k =>
      obtain ⟨earlier, line, rest, h⟩ := ih (Nat.le_of_succ_le_succ hk)
      have hstart := h.start_le
      have hstop := h.le_stop
      by_cases hc : c = '\n'
      · -- an empty line stands in front
        refine ⟨[] :: earlier, line, rest, ?_, ?_, h.line_whole, h.rest_eq, ?_, ?_⟩
        · rw [closedLines_cons, hc, h.text]
          rfl
        · exact List.forall_mem_cons.mpr ⟨by simp, h.earlier_whole⟩
        · rw [closedLines_cons, List.nil_append, List.length_cons]
          omega
        · rw [closedLines_cons, List.nil_append, List.length_cons]
          omega
      · cases earlier with
        | nil =>
          -- the line of the offset is the first one, and longer by the character
          refine ⟨[], c :: line, rest, ?_, h.earlier_whole, ?_, h.rest_eq, Nat.zero_le _, ?_⟩
          · rw [h.text]
            rfl
          · exact List.not_mem_cons_of_ne_of_not_mem (Ne.symm hc) h.line_whole
          · rw [List.length_cons]
            omega
        | cons l ls =>
          have hearlier := List.forall_mem_cons.mp h.earlier_whole
          refine ⟨(c :: l) :: ls, line, rest, ?_, ?_, h.line_whole, h.rest_eq, ?_, ?_⟩
          · rw [h.text, closedLines_cons, closedLines_cons]
            rfl
          · exact List.forall_mem_cons.mpr
              ⟨List.not_mem_cons_of_ne_of_not_mem (Ne.symm hc) hearlier.1, hearlier.2⟩
          · rw [closedLines_cons] at hstart ⊢
            rw [List.cons_append, List.length_cons]
            omega
          · rw [closedLines_cons] at hstop ⊢
            rw [List.cons_append, List.length_cons]
            omega

/-! ### What is counted and cut -/

theorem count_closedLines {ls : List (List Char)} (h : ∀ l ∈ ls, '\n' ∉ l) :
    (closedLines ls).count '\n' = ls.length := by
  induction ls with
  | nil => rfl
  | cons l ls ih =>
    obtain ⟨hl, hls⟩ := List.forall_mem_cons.mp h
    rw [closedLines_cons, List.count_append, List.count_eq_zero.mpr hl, List.count_cons_self,
      ih hls, List.length_cons, Nat.zero_add]

theorem beq_newline_eq_false {l : List Char} (h : '\n' ∉ l) : ∀ c ∈ l, (c == '\n') = false := by
  intro c hc
  rw [beq_eq_false_iff_ne]
  rintro rfl
  exact h hc

/-- Closed lines are split at the newlines that close them. -/
theorem splitOnP_closedLines {ls : List (List Char)} (h : ∀ l ∈ ls, '\n' ∉ l)
    (cs : List Char) :
    (closedLines ls ++ cs).splitOnP (· == '\n') = ls ++ cs.splitOnP (· == '\n') := by
  induction ls with
  | nil => rfl
  | cons l ls ih =>
    obtain ⟨hl, hls⟩ := List.forall_mem_cons.mp h
    rw [closedLines_cons, List.append_assoc, List.cons_append,
      List.splitOnP_append_cons_of_forall_mem (beq_newline_eq_false hl) '\n' rfl, ih hls,
      List.cons_append]

namespace LiesOn

variable {cs : List Char} {k : Nat} {earlier : List (List Char)} {line rest : List Char}

/-- In front of the offset stand the earlier lines and the beginning of its line. -/
theorem take (h : LiesOn cs k earlier line rest) :
    cs.take k = closedLines earlier ++ line.take (k - (closedLines earlier).length) := by
  have hstart := h.start_le
  have hstop := h.le_stop
  rw [h.text, List.take_append, List.take_of_length_le hstart,
    List.take_append_of_le_length (by omega)]

theorem length_take (h : LiesOn cs k earlier line rest) : (cs.take k).length = k := by
  have hstart := h.start_le
  have hstop := h.le_stop
  rw [h.take, List.length_append, List.length_take]
  omega

theorem count (h : LiesOn cs k earlier line rest) :
    (cs.take k).count '\n' = earlier.length := by
  have hline : '\n' ∉ line.take (k - (closedLines earlier).length) :=
    fun hmem => h.line_whole (List.mem_of_mem_take hmem)
  rw [h.take, List.count_append, count_closedLines h.earlier_whole, List.count_eq_zero.mpr hline,
    Nat.add_zero]

/-- Going back from the offset, the next newline is met at the end of the earlier lines. -/
theorem length_takeWhile (h : LiesOn cs k earlier line rest) :
    ((cs.take k).reverse.takeWhile (· != '\n')).length = k - (closedLines earlier).length := by
  have hline : ∀ c ∈ (line.take (k - (closedLines earlier).length)).reverse,
      (c != '\n') = true := by
    intro c hc
    rw [List.mem_reverse] at hc
    rw [bne_iff_ne]
    rintro rfl
    exact h.line_whole (List.mem_of_mem_take hc)
  have hfront : (closedLines earlier).reverse.takeWhile (· != '\n') = [] := by
    rcases List.eq_nil_or_concat earlier with hnil | ⟨ls, l, hconcat⟩
    · rw [hnil]
      rfl
    · rw [hconcat, closedLines, List.concat_eq_append, List.flatMap_append]
      simp
  have hstop := h.le_stop
  rw [h.take, List.reverse_append, List.takeWhile_append_of_pos hline, hfront, List.append_nil,
    List.length_reverse, List.length_take]
  omega

theorem splitOnP_getD (h : LiesOn cs k earlier line rest) :
    (cs.splitOnP (· == '\n')).getD earlier.length [] = line := by
  have hnone := beq_newline_eq_false h.line_whole
  have hsplit : ∃ later, (line ++ rest).splitOnP (· == '\n') = line :: later := by
    rcases h.rest_eq with hnil | ⟨ds, hds⟩
    · rw [hnil, List.append_nil]
      exact ⟨[], List.splitOnP_eq_singleton hnone⟩
    · rw [hds]
      exact ⟨_, List.splitOnP_append_cons_of_forall_mem hnone '\n' rfl ds⟩
  obtain ⟨later, hlater⟩ := hsplit
  rw [h.text, splitOnP_closedLines h.earlier_whole, hlater, List.getD_eq_getElem?_getD,
    List.getElem?_append_right (Nat.le_refl _), Nat.sub_self]
  rfl

end LiesOn

/-! ### Lines and columns of spans -/

/-- The span starts on a line of its text. -/
def Span.StartsOn (s : Span) (earlier : List (List Char)) (line rest : List Char) : Prop :=
  0 ≤ s.start ∧ LiesOn s.source.toList s.start.toNat earlier line rest

theorem Span.exists_startsOn {s : Span} (hstart : 0 ≤ s.start)
    (hsource : s.start ≤ s.source.toList.length) :
    ∃ earlier line rest, s.StartsOn earlier line rest := by
  obtain ⟨earlier, line, rest, h⟩ := exists_liesOn s.source.toList (k := s.start.toNat) (by omega)
  exact ⟨earlier, line, rest, hstart, h⟩

namespace Span.StartsOn

variable {s : Span} {earlier : List (List Char)} {line rest : List Char}

theorem before_eq (h : s.StartsOn earlier line rest) :
    s.before = s.source.toList.take s.start.toNat := by
  have hlength := h.2.length_take
  rw [List.length_take] at hlength
  have hcut := cutOffset_natCast (n := s.source.toList.length) (k := s.start.toNat) (by omega)
  rw [Int.toNat_of_nonneg h.1] at hcut
  rw [before, hcut]

theorem line_eq (h : s.StartsOn earlier line rest) : s.line = earlier.length + 1 := by
  rw [Span.line, h.before_eq, h.2.count]

theorem lineStart_eq (h : s.StartsOn earlier line rest) :
    s.lineStart = (closedLines earlier).length := by
  have hstart := h.2.start_le
  rw [lineStart, h.before_eq, h.2.length_take, h.2.length_takeWhile]
  omega

theorem column_eq (h : s.StartsOn earlier line rest) :
    s.column = s.start - (closedLines earlier).length + 1 := by
  rw [column, h.lineStart_eq]

theorem sourceLine_eq (h : s.StartsOn earlier line rest) : s.sourceLine = line := by
  rw [sourceLine, h.line_eq, Nat.add_sub_cancel]
  exact h.2.splitOnP_getD

end Span.StartsOn

end Destructure
