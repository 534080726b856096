import RoundTrip.Case.Basic

/-! # The tally of a run

    A tally counts cases by their verdicts and remembers the first failure.  The
    results themselves are kept only on request.  The number of sources is
    counted apart: it grows when a source is split into several files. -/

namespace RoundTrip

/-- What has been counted so far. -/
structure Tally where
  tested : Int
  failed : Int
  uncompilable : Int
  /-- The number of sources, each file of a split one counted. -/
  sources : Int
  keepsResults : Bool
  results : List Finding
  firstFailure : Option Finding
  deriving DecidableEq, Repr

namespace Tally

/-- The tally before the first case of `n` sources. -/
def start (n : Nat) (keepsResults : Bool) : Tally where
  tested := 0
  failed := 0
  uncompilable := 0
  sources := n
  keepsResults := keepsResults
  results := []
  firstFailure := none

/-- Counts more sources, or fewer. -/
def addSources (t : Tally) (n : Int) : Tally := { t with sources := t.sources + n }

/-- Counts a result. -/
def add (t : Tally) (r : Finding) : Tally :=
  { t with
    tested := if r.tested then t.tested + 1 else t.tested
    failed := if r.failed then t.failed + 1 else t.failed
    uncompilable := if r.tested then t.uncompilable else t.uncompilable + 1
    results := if t.keepsResults then t.results ++ [r] else t.results
    firstFailure := if r.failed then t.firstFailure.or (some r) else t.firstFailure }

/-- The number of tested cases that did not fail. -/
def passed (t : Tally) : Int := t.tested - t.failed

/-- The number of cases that were gone through. -/
def finished (t : Tally) : Int := t.tested + t.uncompilable

/-- Whether no case failed. -/
def succeeded (t : Tally) : Bool := t.failed == 0

end Tally

end RoundTrip
