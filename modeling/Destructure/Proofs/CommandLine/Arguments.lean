/-
  Destructure/Proofs/CommandLine/Arguments.lean
  =============================================
  **Arguments that are taken** — where arguments are accepted and no help is asked for,
  there are two positional ones, and the first is a text (`readArguments_positionals`).
  Of the second the separator may leave nothing: an argument that is the separator itself
  can be positional behind another one, and is taken off again.

  The invariant carried through the arguments is that the first of them which is taken is
  no such argument, for none stands before the first separator.
-/
import Mathlib.Data.List.Basic
import Destructure.CommandLine.Arguments
import Destructure.Proofs.Outcome

namespace Destructure

/-! ### Separators -/

/-- No separator counts as an argument before the first that counts as one. -/
def Separated : List (Mark × String) → Prop
  | [] => True
  | (m, s) :: ms => m = .separator ∨ (m = .argument → s ≠ "--") ∧ Separated ms

theorem Separated.tail {m : Mark} {s : String} {ms : List (Mark × String)}
    (h : Separated ((m, s) :: ms)) (hm : m ≠ .separator) : Separated ms := by
  rcases h with h | ⟨-, h⟩
  · exact absurd h hm
  · exact h

theorem separated_markArguments {args : List String} {ms : List (Mark × String)}
    (h : markArguments args = .ok ms) : Separated ms := by
  induction args generalizing ms with
  | nil =>
    cases h
    trivial
  | cons s args ih =>
    obtain ⟨m, hm, h⟩ := bind_eq_ok_iff.mp h
    split at h
    · next hseparator =>
      cases h
      exact Or.inl hseparator
    · next hseparator =>
      obtain ⟨ms', hms, h⟩ := bind_eq_ok_iff.mp h
      cases h
      refine Or.inr ⟨?_, ih hms⟩
      rintro - rfl
      have hdashes : Mark.ofArgument "--" = .ok .separator := rfl
      rw [hdashes] at hm
      cases hm
      exact hseparator rfl

/-! ### Positional arguments -/

theorem positionalText_cons (s : String) (group : List String) :
    positionalText (s :: group) = if s = "--" then group.head? else some s := by
  rw [positionalText, List.erase_cons]
  by_cases hs : s = "--"
  · simp [hs]
  · simp [hs]

/-- The first positional argument is a text. -/
theorem positionalText_of_separated {ms rest : List (Mark × String)} {group : List String}
    (hseparated : Separated ms) (h : takePositional? ms = some (group, rest)) :
    positionalText group ≠ none := by
  unfold takePositional? at h
  dsimp only at h
  split at h
  · next s behind hdrop =>
    cases h
    cases ms with
    | nil => cases hdrop
    | cons m ms =>
      obtain ⟨m, t⟩ := m
      by_cases hm : m = .separator
      · -- the separator in front is the one that is taken off
        rw [List.takeWhile_cons, if_pos (by simpa using hm), List.map_cons, List.cons_append,
          positionalText_cons]
        split
        · simp
        · simp
      · rw [List.dropWhile_cons, if_neg (by simpa using hm)] at hdrop
        cases hdrop
        have hs : s ≠ "--" := by
          rcases hseparated with h | ⟨h, -⟩
          · exact absurd h hm
          · exact h rfl
        rw [List.takeWhile_cons, if_neg (by simp), List.map_nil, List.nil_append,
          positionalText_cons, if_neg hs]
        simp
  · cases h

namespace Arguments

/-- Positional arguments are added behind those that there are, no more than asked for,
    and nothing else changes. Where none is added, nothing is taken. -/
theorem takePositionals_spec (n : Nat) (a : Arguments) (ms : List (Mark × String)) :
    ∃ more, (takePositionals n a ms).1 = { a with positionals := a.positionals ++ more } ∧
      more.length ≤ n ∧ (more = [] → (takePositionals n a ms).2 = ms) ∧
      (Separated ms → more.head? ≠ some none) := by
  induction n generalizing a ms with
  | zero => exact ⟨[], by simp [takePositionals], by simp, by simp [takePositionals], by simp⟩
  | succ n ih =>
    rw [takePositionals]
    cases htake : takePositional? ms with
    | none => exact ⟨[], by simp, by simp, by simp, by simp⟩
    | some taken =>
      obtain ⟨group, rest⟩ := taken
      obtain ⟨more, hmore, hlength, -, -⟩ :=
        ih { a with positionals := a.positionals ++ [positionalText group] } rest
      refine ⟨positionalText group :: more, ?_, by simpa using hlength, by simp, ?_⟩
      · simpa using hmore
      · intro hseparated hnone
        exact positionalText_of_separated hseparated htake (by simpa using hnone)

/-! ### All arguments -/

/-- Something stands in front of the first flag, if it is not the first of all. -/
theorem takeWhile_not_ne_nil {ms : List (Mark × String)} {isFlag : Mark × String → Bool}
    (hany : ms.any isFlag = true) (hfirst : ∀ m, ms.head? = some m → isFlag m = false) :
    ms.takeWhile (fun m => !isFlag m) ≠ [] := by
  cases ms with
  | nil => cases hany
  | cons m ms =>
    rw [List.takeWhile_cons, hfirst m rfl]
    exact List.cons_ne_nil _ _

/-- What has been made of the arguments in front of others: two positional ones at most,
    of which the first is a text, unless something in front was not recognised. -/
structure Begun (a : Arguments) (ms : List (Mark × String)) : Prop where
  count : a.positionals.length ≤ 2
  first : a.unrecognised = [] → a.positionals.head? ≠ some none
  separated : a.unrecognised = [] → a.positionals = [] → Separated ms

theorem Begun.of_unrecognised {a : Arguments} {ms : List (Mark × String)}
    (hcount : a.positionals.length ≤ 2) (h : a.unrecognised ≠ []) : a.Begun ms :=
  ⟨hcount, fun hnil => absurd hnil h, fun hnil => absurd hnil h⟩

/-- A flag in front takes nothing away that the others rest on. -/
theorem Begun.flag {a : Arguments} {reading : FlagReading} {s : String}
    {ms : List (Mark × String)} (h : a.Begun ((.flag reading, s) :: ms)) (flags : List Flag)
    (left : List String) :
    Begun { a with flags := a.flags ++ flags, unrecognised := a.unrecognised ++ left } ms := by
  refine ⟨h.count, ?_, ?_⟩
  · intro hrecognised
    exact h.first (List.append_eq_nil_iff.mp hrecognised).1
  · intro hrecognised hnone
    exact (h.separated (List.append_eq_nil_iff.mp hrecognised).1 hnone).tail (by simp)

theorem Begun.takePositionals {a : Arguments} {ms : List (Mark × String)} (h : a.Begun ms) :
    ∃ more, (a.takePositionals a.wanted ms).1 =
        { a with positionals := a.positionals ++ more } ∧
      (a.positionals ++ more).length ≤ 2 ∧ (more = [] → (a.takePositionals a.wanted ms).2 = ms) ∧
      (a.unrecognised = [] → (a.positionals ++ more).head? ≠ some none) := by
  obtain ⟨more, hmore, hlength, hnothing, hfirst⟩ := takePositionals_spec a.wanted a ms
  refine ⟨more, hmore, ?_, hnothing, ?_⟩
  · have hcount := h.count
    have hwanted : a.wanted = 2 - a.positionals.length := rfl
    rw [List.length_append]
    omega
  · intro hrecognised
    cases hpositionals : a.positionals with
    | nil => exact hfirst (h.separated hrecognised hpositionals)
    | cons p ps =>
      have hhead := h.first hrecognised
      rw [hpositionals] at hhead
      exact hhead

theorem consume_begun (fuel : Nat) {a r : Arguments} {ms : List (Mark × String)}
    (h : a.Begun ms) (hr : a.consume fuel ms = .ok r) :
    r.positionals.length ≤ 2 ∧ (r.unrecognised = [] → r.positionals.head? ≠ some none) := by
  induction fuel generalizing a ms with
  | zero =>
    cases hr
    exact ⟨h.count, h.first⟩
  | succ fuel ih =>
    obtain ⟨more, hmore, hcount, hnothing, hfirst⟩ := h.takePositionals
    unfold consume at hr
    generalize takePositionals a.wanted a ms = taken at hmore hnothing hr
    obtain ⟨b, rest⟩ := taken
    dsimp only at hmore hnothing hr
    subst hmore
    split at hr
    · -- no flag is left: the rest is positional or not recognised
      cases hr
      refine ⟨hcount, ?_⟩
      intro hrecognised
      exact hfirst (List.append_eq_nil_iff.mp hrecognised).1
    · next hflags =>
      split at hr
      · next reading s ms =>
        obtain ⟨⟨flags, left⟩, -, hr⟩ := bind_eq_ok_iff.mp hr
        dsimp only at hr
        have hbegun := h.flag flags left
        split at hr
        · cases hr
          exact ⟨hbegun.count, hbegun.first⟩
        · exact ih hbegun hr
      · next hhead =>
        split at hr
        · next hless =>
          refine ih ⟨hcount, hfirst, ?_⟩ hr
          intro _ hnone
          rw [hnothing (List.append_eq_nil_iff.mp hnone).2] at hless
          exact absurd hless (Nat.lt_irrefl _)
        · -- what stands in front of the next flag is not recognised
          rw [Bool.not_eq_true', Bool.not_eq_false] at hflags
          have hextra := takeWhile_not_ne_nil hflags (by
            rintro ⟨m, s⟩ hm
            obtain ⟨ms', rfl⟩ := List.head?_eq_some_iff.mp hm
            cases m with
            | flag reading => exact absurd rfl (hhead reading s ms')
            | _ => rfl)
          refine ih (.of_unrecognised ?_ ?_) hr
          · exact h.count
          · exact List.append_ne_nil_of_right_ne_nil _ (mt List.map_eq_nil_iff.mp hextra)

end Arguments

/-- Where arguments are accepted and help is not asked for, there are two positional ones,
    and the first is a text. -/
theorem readArguments_positionals {args : List String} {a : Arguments}
    (ha : readArguments args = .ok a) (hhelp : .help ∉ a.flags) :
    ∃ pattern value?, a.positionals = [some pattern, value?] := by
  obtain ⟨ms, hms, ha⟩ := bind_eq_ok_iff.mp ha
  obtain ⟨r, hr, ha⟩ := bind_eq_ok_iff.mp ha
  have hbegun : Arguments.empty.Begun ms :=
    ⟨Nat.zero_le 2, fun _ => by simp [Arguments.empty], fun _ _ => separated_markArguments hms⟩
  obtain ⟨hcount, hfirst⟩ := Arguments.consume_begun _ hbegun hr
  split at ha
  · next hasked =>
    cases ha
    exact absurd (by simpa using hasked) hhelp
  · dsimp only at ha
    split at ha
    · cases ha
    · next hwanted =>
      split at ha
      · cases ha
      · next hrecognised =>
        cases ha
        have hrecognised : a.unrecognised = [] := by simpa using hrecognised
        have hlength : a.positionals.length = 2 := by
          have htwo : a.wanted = 2 - a.positionals.length := rfl
          omega
        obtain ⟨p?, value?, hpositionals⟩ := List.length_eq_two.mp hlength
        have hp := hfirst hrecognised
        rw [hpositionals] at hp
        cases p? with
        | none => exact absurd rfl hp
        | some pattern => exact ⟨pattern, value?, hpositionals⟩

theorem Mark.ofArgument_eq_argument {s : String} (h : s.toList.head? ≠ some '-') :
    Mark.ofArgument s = .ok .argument := by
  rw [Mark.ofArgument]
  exact if_pos h

/-- Two texts that do not start with a dash are a pattern and a value. -/
theorem readArguments_texts (pattern value : String)
    (hpattern : pattern.toList.head? ≠ some '-') (hvalue : value.toList.head? ≠ some '-') :
    readArguments [pattern, value] = .ok ⟨[some pattern, some value], [], []⟩ := by
  have htext : ∀ {s : String}, s.toList.head? ≠ some '-' → positionalText [s] = some s := by
    intro s hs
    rw [positionalText_cons, if_neg]
    rintro rfl
    exact hs rfl
  have hmarks : markArguments [pattern, value] =
      .ok [(.argument, pattern), (.argument, value)] := by
    simp [markArguments, Mark.ofArgument_eq_argument hpattern, Mark.ofArgument_eq_argument hvalue]
  rw [readArguments, hmarks]
  simp [Arguments.consume, Arguments.empty, Arguments.wanted, positionalNames,
    Arguments.takePositionals, takePositional?, htext hpattern, htext hvalue]

end Destructure
