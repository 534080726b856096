import RoundTrip.Case.Tally

/-! # What a tally counts

    A tally is changed one result at a time, and its numbers are kept apart from
    one another: `passed` is a subtraction, `firstFailure` is set once.
    `Tally.Counted` says what they come to over a list of results.  It composes
    (`Counted.trans`), so a run needs only what one case does to the tally. -/

namespace RoundTrip

/-- The verdicts that are failures of the test. -/
def Verdict.failures : List Verdict := [.importFailed, .mismatched, .exportFailed, .timedOut]

/-- A result is counted as failed exactly if its verdict is one of the four failures. -/
theorem Finding.failed_eq (r : Finding) : r.failed = decide (r.verdict ∈ Verdict.failures) := by
  unfold Finding.failed
  cases r.verdict <;> simp [Verdict.isFailure, Verdict.failures]

/-- Everything is counted as tested but what the compiler did not take. -/
theorem Finding.tested_eq (r : Finding) : r.tested = decide (r.verdict ≠ .uncompilable) := by
  unfold Finding.tested Verdict.isTested
  by_cases h : r.verdict = .uncompilable <;> simp [h]

namespace Tally

/-- What a tally has become after results have been counted, however the number
    of sources has changed. -/
structure Counted (t : Tally) (rs : List Finding) (t' : Tally) : Prop where
  tested : t'.tested = t.tested + rs.countP Finding.tested
  failed : t'.failed = t.failed + rs.countP Finding.failed
  uncompilable : t'.uncompilable = t.uncompilable + rs.countP (fun r => !r.tested)
  keepsResults : t'.keepsResults = t.keepsResults
  results : t'.results = if t.keepsResults then t.results ++ rs else t.results
  firstFailure : t'.firstFailure = t.firstFailure.or (rs.find? Finding.failed)

namespace Counted

variable {t t' t'' : Tally} {rs ss : List Finding}

theorem refl (t : Tally) : Counted t [] t where
  tested := by simp
  failed := by simp
  uncompilable := by simp
  keepsResults := rfl
  results := by simp
  firstFailure := by simp

/-- Two stretches of results count like one: the numbers add up, the results are joined, and a
    first failure of the first stretch goes before one of the second. -/
theorem trans (h : Counted t rs t') (h' : Counted t' ss t'') : Counted t (rs ++ ss) t'' where
  tested := by rw [h'.tested, h.tested, List.countP_append]; omega
  failed := by rw [h'.failed, h.failed, List.countP_append]; omega
  uncompilable := by rw [h'.uncompilable, h.uncompilable, List.countP_append]; omega
  keepsResults := h'.keepsResults.trans h.keepsResults
  results := by
    rw [h'.results, h.results, h.keepsResults]
    cases t.keepsResults <;> simp
  firstFailure := by rw [h'.firstFailure, h.firstFailure, List.find?_append, Option.or_assoc]

/-- To learn of more sources is to count no result. -/
theorem addSources (t : Tally) (n : Int) : Counted t [] (t.addSources n) where
  tested := by simp [Tally.addSources]
  failed := by simp [Tally.addSources]
  uncompilable := by simp [Tally.addSources]
  keepsResults := rfl
  results := by simp [Tally.addSources]
  firstFailure := by simp [Tally.addSources]

/-- To add a result to the tally is to count that one result. -/
theorem add (t : Tally) (r : Finding) : Counted t [r] (t.add r) where
  tested := by cases h : r.tested <;> simp [Tally.add, h]
  failed := by cases h : r.failed <;> simp [Tally.add, h]
  uncompilable := by cases h : r.tested <;> simp [Tally.add, h]
  keepsResults := rfl
  results := rfl
  firstFailure := by cases h : r.failed <;> simp [Tally.add, h]

section FromStart

variable {n : Nat} {keeps : Bool}

/-- A run that started from nothing has succeeded if none of its results is a failure. -/
theorem succeeded_iff (h : Counted (start n keeps) rs t) :
    t.succeeded = true ↔ ∀ r ∈ rs, r.verdict ∉ Verdict.failures := by
  have hfailed : t.failed = rs.countP Finding.failed := by simpa [start] using h.failed
  have hsucceeded : t.succeeded = true ↔ rs.countP Finding.failed = 0 := by
    simp [Tally.succeeded, hfailed]
  rw [hsucceeded, List.countP_eq_zero]
  simp only [Finding.failed_eq, decide_eq_true_eq]

/-- The number of tested cases, in terms of the verdicts. -/
theorem tested_eq (h : Counted (start n keeps) rs t) :
    t.tested = rs.countP fun r => r.verdict ≠ .uncompilable := by
  rw [h.tested, funext Finding.tested_eq]
  simp [start]

/-- The number of failed cases, in terms of the verdicts. -/
theorem failed_eq (h : Counted (start n keeps) rs t) :
    t.failed = rs.countP fun r => r.verdict ∈ Verdict.failures := by
  rw [h.failed, funext Finding.failed_eq]
  simp [start]

/-- The number of cases that were passed over, in terms of the verdicts. -/
theorem uncompilable_eq (h : Counted (start n keeps) rs t) :
    t.uncompilable = rs.countP fun r => r.verdict = .uncompilable := by
  rw [h.uncompilable]
  simp [start, Finding.tested_eq]

/-- The first failure is the first result with a failing verdict, in the order of counting. -/
theorem firstFailure_eq (h : Counted (start n keeps) rs t) :
    t.firstFailure = rs.find? fun r => r.verdict ∈ Verdict.failures := by
  rw [h.firstFailure, funext Finding.failed_eq]
  rfl

end FromStart

end Counted

end Tally

end RoundTrip
