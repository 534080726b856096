import RoundTrip.World.Command

/-! # Cases and their verdicts

    A case is a source with the files that are compiled for it.  Its
    verification ends in a verdict, with a message and a diagnostic for the
    reader.  A case that does not compile says nothing about the round trip and
    does not count as tested. -/

namespace RoundTrip

/-- What the verification of a case found. -/
inductive Verdict where
  /-- The document is the same after the round trip. -/
  | passed
  /-- The input does not compile in the first place. -/
  | uncompilable
  /-- The document could not be imported. -/
  | importFailed
  /-- The document is not the same after the round trip. -/
  | mismatched
  /-- The document could not be exported although the input compiles. -/
  | exportFailed
  /-- A call of the compiler ran out of time. -/
  | timedOut
  /-- A verdict of another kind of test, by its label. -/
  | other (label : String)
  deriving DecidableEq, Repr

namespace Verdict

/-- The label of a verdict in reports. -/
def label : Verdict → String
  | .passed => "passed"
  | .uncompilable => "uncompilable"
  | .importFailed => "import_failed"
  | .mismatched => "mismatched"
  | .exportFailed => "export_failed"
  | .timedOut => "timed_out"
  | .other label => label

/-- The verdicts with a label of their own. -/
def known : List Verdict :=
  [.passed, .uncompilable, .importFailed, .mismatched, .exportFailed, .timedOut]

/-- The verdict of a label. -/
def ofLabel (label : String) : Verdict :=
  (known.find? fun v => v.label = label).getD (.other label)

/-- Whether a verdict is a failure of the test. -/
def isFailure : Verdict → Bool
  | .importFailed | .mismatched | .exportFailed | .timedOut => true
  | .passed | .uncompilable | .other _ => false

/-- Whether a case with this verdict counts as tested. -/
def isTested (v : Verdict) : Bool := v != .uncompilable

/-- A failure counts as tested. -/
theorem isTested_of_isFailure {v : Verdict} (h : v.isFailure = true) : v.isTested = true := by
  cases v with
  | uncompilable => exact nomatch h
  | _ => rfl

end Verdict

/-- A source with the files that are compiled for it. -/
structure Case where
  source : Path
  inputs : List Path
  deriving DecidableEq, Repr

/-- What is known about a case after its verification. -/
structure Finding where
  subject : Case
  verdict : Verdict
  /-- One line for the reader. -/
  message : String
  /-- What the tools printed. -/
  diagnostic : String
  deriving DecidableEq, Repr

namespace Finding

/-- Whether the case failed. -/
def failed (r : Finding) : Bool := r.verdict.isFailure

/-- Whether the case counts as tested. -/
def tested (r : Finding) : Bool := r.verdict.isTested

end Finding

/-- The diagnostic of a failed call: both streams as they are, the error stream
    first. -/
def Invocation.streams (i : Invocation) : String :=
  "Compiler stderr:\n" ++ Text.decode i.stderr ++ "\nCompiler stdout:\n" ++ Text.decode i.stdout

/-- The result of a case whose call in some step ran out of time. -/
def Case.timedOut (c : Case) (step : String) (i : Invocation) : Finding where
  subject := c
  verdict := .timedOut
  message := "compiler timed out during " ++ step ++ " after " ++ toString i.milliseconds ++ " ms"
  diagnostic := String.intercalate " " i.argv

end RoundTrip
