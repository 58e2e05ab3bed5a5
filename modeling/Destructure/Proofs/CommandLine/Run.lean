/-
  Destructure/Proofs/CommandLine/Run.lean
  =======================================
  **What a run comes to** — where a pattern and a value are taken from the arguments, the
  exit status tells whether the value is one of JSON that the pattern matches, and the
  bindings are all that is written to the output (`program_follows_match`). Two faults
  come in between: a number in the value that has too many digits, and a value of which
  the separator has left nothing.
-/
import Mathlib
import Destructure.CommandLine.Run
import Destructure.Proofs.CommandLine.Arguments
import Destructure.Proofs.Compile.Ends
import Destructure.Proofs.Json.Reading
import Destructure.Proofs.Json.Writing

namespace Destructure

/-! ### Pattern and value -/

/-- The pattern text compiles, the value text is read, and the one has these bindings of
    the other, if it matches it. -/
def Answers (pattern value : String) (bs? : Option Bindings) : Prop :=
  ∃ c v, compilePattern pattern = .ok c ∧ readJson value.toList = .ok v ∧ c.match? v = .ok bs?

/-- The outcome of a run on a pattern text and a value text. -/
structure Outcome.Follows (r : Outcome) (quiet : Bool) (pattern value : String) : Prop where
  exit : r.exit = 0 ∨ r.exit = 1
  matched : r.exit = 0 ↔ ∃ bs, Answers pattern value (some bs)
  written : ∀ bs, Answers pattern value (some bs) → quiet = false →
    ∃ form, bs.toValue.Writes form ∧ r.stdout = form ++ "\n"
  silent : r.exit ≠ 0 ∨ quiet = true → r.stdout = ""

theorem Answers.unique {pattern value : String} {bs bs' : Option Bindings}
    (h : Answers pattern value bs) (h' : Answers pattern value bs') : bs = bs' := by
  obtain ⟨c, v, hc, hv, hmatch⟩ := h
  obtain ⟨c', v', hc', hv', hmatch'⟩ := h'
  rw [hc, Except.ok.injEq] at hc'
  rw [hv, Except.ok.injEq] at hv'
  subst hc' hv'
  rw [hmatch, Except.ok.injEq] at hmatch'
  exact hmatch'

/-- A run that ends, with an outcome that tells what the answer is and complains that there
    is none unless it is to be quiet. -/
def Settles (quiet : Bool) (pattern value : String) (run : Except Failure Outcome) : Prop :=
  ∃ r, run = .ok r ∧ r.Follows quiet pattern value ∧
    (Answers pattern value none → (r.stderr = "" ↔ quiet = true))

/-! ### Ends of a run -/

section Ends

variable {pattern value : String} {bs : Bindings}

/-- With bindings the status is zero, and the bindings are written. -/
theorem settles_of_bindings {form : String} (h : Answers pattern value (some bs))
    (hform : bs.toValue.Writes form) (quiet : Bool) :
    Settles quiet pattern value (.ok ⟨0, if quiet then "" else form ++ "\n", ""⟩) := by
  refine ⟨_, rfl, ⟨Or.inl rfl, ⟨fun _ => ⟨bs, h⟩, fun _ => rfl⟩, ?_, ?_⟩, ?_⟩
  · intro bs' h' hquiet
    cases h.unique h'
    subst hquiet
    exact ⟨form, hform, rfl⟩
  · rintro (hexit | rfl)
    · exact absurd rfl hexit
    · rfl
  · intro hnone
    cases h.unique hnone

/-- Without bindings it is one, and nothing is written. -/
theorem settles_of_no_bindings {stderr : String} (h : ∀ bs, ¬ Answers pattern value (some bs))
    (quiet : Bool) (hstderr : Answers pattern value none → (stderr = "" ↔ quiet = true)) :
    Settles quiet pattern value (.ok ⟨1, "", stderr⟩) := by
  refine ⟨_, rfl, ⟨Or.inr rfl, ⟨?_, ?_⟩, fun bs hbs => absurd hbs (h bs), fun _ => rfl⟩, hstderr⟩
  · intro hzero
    exact absurd hzero Nat.one_ne_zero
  · rintro ⟨bs, hbs⟩
    exact absurd hbs (h bs)

theorem settles_of_no_answer (h : ∀ bs?, ¬ Answers pattern value bs?) (quiet : Bool)
    (stderr : String) : Settles quiet pattern value (.ok ⟨1, "", stderr⟩) :=
  settles_of_no_bindings (fun bs => h (some bs)) quiet fun hnone => absurd hnone (h none)

end Ends

/-! ### Runs -/

/-- What is said of a value that is not matched. -/
theorem complaint_eq_empty_iff (quiet : Bool) (text : String) :
    (if quiet then "" else programName ++ ": no match\n" ++ text) = "" ↔ quiet = true := by
  cases quiet with
  | true => simp
  | false => simp [programName]

section Runs

variable {pattern value : String}

theorem runMatch_settles {c : CompiledPattern} {v : Value} (hc : compilePattern pattern = .ok c)
    (hread : readJson value.toList = .ok v) (hv : v.IsJson) (quiet : Bool) :
    Settles quiet pattern value (runMatch quiet c v) := by
  rcases exists_match_of_isJson hc hv with ⟨bs, hbs, hnodup, hvalues⟩ | hnone
  · have hform := (Bindings.isJson_toValue hnodup hvalues).writes
    rw [← bs.json_eq] at hform
    rw [runMatch, hbs]
    exact settles_of_bindings ⟨c, v, hc, hread, hbs⟩ hform quiet
  · have hanswers : Answers pattern value none := ⟨c, v, hc, hread, hnone⟩
    rw [runMatch, hnone, ok_bind]
    refine settles_of_no_bindings ?_ quiet ?_
    · intro bs hbs
      cases hanswers.unique hbs
    · intro _
      rw [String.append_assoc]
      exact complaint_eq_empty_iff quiet _

theorem runPattern_settles {v : Value} (hread : readJson value.toList = .ok v) (hv : v.IsJson)
    (colour quiet : Bool) :
    Settles quiet pattern value (runPattern colour quiet pattern v) := by
  obtain ⟨r, hr, ⟨c, hsucceeded⟩ | ⟨phase, first, others, hrefused⟩⟩ :=
    compile_ends pattern defaultSourceName
  · have hc : compilePattern pattern = .ok c := by
      rw [compilePattern, hr]
      exact hsucceeded.unwrap
    have hrun : runPattern colour quiet pattern v = runMatch quiet c v := by
      rw [runPattern, hr, ok_bind, hsucceeded.success, hsucceeded.pattern]
    rw [hrun]
    exact runMatch_settles hc hread hv quiet
  · have hnone : ∀ bs?, ¬ Answers pattern value bs? := by
      rintro bs? ⟨c, -, hc, -⟩
      rw [compilePattern, hr, ok_bind, hrefused.unwrap] at hc
      cases hc
    rw [runPattern, hr, ok_bind, hrefused.success, hrefused.pattern]
    exact settles_of_no_answer hnone quiet _

theorem runTexts_settles (colour quiet : Bool) (hlength : value.toList.length ≤ Value.countLimit)
    (hread : readJson value.toList ≠ .error .tooManyDigits) :
    Settles quiet pattern value (runTexts colour quiet pattern value) := by
  rcases readJson_cases hlength with ⟨v, hok, hv⟩ | ⟨cause, offset, hmalformed⟩ | ⟨hlong, -⟩
  · rw [runTexts, hok]
    exact runPattern_settles hok hv colour quiet
  · have hnone : ∀ bs?, ¬ Answers pattern value bs? := by
      rintro bs? ⟨-, v, -, hok, -⟩
      rw [hmalformed] at hok
      cases hok
    rw [runTexts, hmalformed]
    exact settles_of_no_answer hnone quiet _
  · exact absurd hlong hread

end Runs

/-- Where help is not asked for, the arguments that are accepted are a pattern text and a
    value text, or the value is missing, which is a fault. So is a number in the value that
    has too many digits. In every other case the run ends with a status that tells whether
    the pattern matches the value, writes the bindings in the form of JSON and nothing
    else, and says why there are none unless it is to be quiet. -/
theorem program_follows_match (colour : Bool) (args : List String) (a : Arguments)
    (ha : readArguments args = .ok a) (hhelp : .help ∉ a.flags) :
    ∃ pattern value?, a.positionals = [some pattern, value?] ∧
      (value? = none → runProgram colour args = .error (.fault .wrongType)) ∧
      ∀ value, value? = some value → value.toList.length ≤ Value.countLimit →
        (readJson value.toList = .error .tooManyDigits → HasLongRun value.toList ∧
          runProgram colour args = .error (.fault .badValue)) ∧
        (readJson value.toList ≠ .error .tooManyDigits → ∃ r, runProgram colour args = .ok r ∧
          r.Follows (a.flags.contains .quiet) pattern value ∧
          (.verbose ∉ a.flags → Answers pattern value none →
            (r.stderr = "" ↔ .quiet ∈ a.flags))) := by
  obtain ⟨pattern, value?, hpositionals⟩ := readArguments_positionals ha hhelp
  have hcontains : a.flags.contains .help = false := by simpa using hhelp
  refine ⟨pattern, value?, hpositionals, ?_, ?_⟩
  · rintro rfl
    rw [runProgram, ha]
    simp only [hcontains, Bool.false_eq_true, if_false, hpositionals]
  · rintro value rfl hlength
    have hrun : runProgram colour args =
        runTexts colour (a.flags.contains .quiet) pattern value := by
      rw [runProgram, ha]
      simp only [hcontains, Bool.false_eq_true, if_false, hpositionals]
    rw [hrun]
    refine ⟨?_, ?_⟩
    · intro hlong
      rcases readJson_cases hlength with ⟨v, hok, -⟩ | ⟨cause, offset, hmalformed⟩ | ⟨-, hrun⟩
      · rw [hok] at hlong
        cases hlong
      · rw [hmalformed] at hlong
        cases hlong
      · exact ⟨hrun, by rw [runTexts, hlong]⟩
    · intro hread
      obtain ⟨r, hr, hfollows, hstderr⟩ := runTexts_settles colour _ hlength hread
      refine ⟨r, hr, hfollows, ?_⟩
      intro _ hnone
      rw [hstderr hnone, List.contains_iff_mem]

/-- A run with a match, one on a number of 4301 digits, and one without a value. -/
theorem program_follows_match_runs :
    (∃ r, runProgram false ["[a, *_]", "[1, 2]"] = .ok r ∧ r.exit = 0) ∧
    runProgram false ["x", String.ofList (List.replicate 4301 '1')] = .error (.fault .badValue) ∧
    runProgram false ["x", "--", "--"] = .error (.fault .wrongType) := by
  refine ⟨?_, ?_, ?_⟩
  · have ha := readArguments_texts "[a, *_]" "[1, 2]" (by simp) (by simp)
    obtain ⟨pattern, value?, hpositionals, -, htexts⟩ :=
      program_follows_match false _ _ ha List.not_mem_nil
    cases hpositionals
    have hread : ∃ v, readJson "[1, 2]".toList = .ok v := ⟨_, by cbv⟩
    have hanswers : ∃ bs, Answers "[a, *_]" "[1, 2]" (some bs) :=
      ⟨_, _, _, by cbv, by cbv, by cbv⟩
    obtain ⟨v, hread⟩ := hread
    obtain ⟨r, hr, hfollows, -⟩ := (htexts _ rfl (by decide)).2 (by rw [hread]; simp)
    exact ⟨r, hr, hfollows.matched.mpr hanswers⟩
  · have hlist : (String.ofList (List.replicate 4301 '1')).toList = List.replicate 4301 '1' :=
      String.toList_ofList
    have hhead : (String.ofList (List.replicate 4301 '1')).toList.head? ≠ some '-' := by
      rw [hlist, List.head?_replicate]
      simp
    have ha := readArguments_texts "x" _ (by simp) hhead
    obtain ⟨pattern, value?, hpositionals, -, htexts⟩ :=
      program_follows_match false _ _ ha List.not_mem_nil
    cases hpositionals
    refine ((htexts _ rfl ?_).1 ?_).2
    · rw [hlist, List.length_replicate]
      decide
    · rw [hlist]
      apply readJson_eq_tooManyDigits
      · intro c hc
        rw [List.eq_of_mem_replicate hc]
        rfl
      · simp
      · rw [List.length_replicate]
        decide
  · have ha : readArguments ["x", "--", "--"] = .ok ⟨[some "x", none], [], []⟩ := by cbv
    obtain ⟨pattern, value?, hpositionals, hmissing, -⟩ :=
      program_follows_match false _ _ ha List.not_mem_nil
    cases hpositionals
    exact hmissing rfl

end Destructure
