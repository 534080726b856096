import RoundTrip.Case.Tally
import RoundTrip.World.Workspace

/-! # Reports

    What a reader gets to see of a run: a line of progress per case, an error
    for each case that failed, a summary, and on request a document with all of
    it. -/

namespace RoundTrip.Report

/-- The dot that is printed when a case is started. -/
def tick (_source : Path) : Action World Unit := World.print "."

/-- The headline of a failed case, if its verdict is a failure. -/
def headline? (r : Finding) : Option String :=
  let ending := " for input file " ++ r.subject.source.text
  match r.verdict with
  | .importFailed => some ("ERROR: AST reimport failed" ++ ending)
  | .exportFailed => some ("ERROR: AST export failed" ++ ending)
  | .mismatched => some ("ERROR: AST reimport mismatch" ++ ending)
  | .timedOut => some ("ERROR: " ++ r.message ++ ending)
  | .passed | .uncompilable | .other _ => none

/-- What is printed about a case that failed. -/
def announceFailure (r : Finding) : Action World Unit :=
  match headline? r with
  | none => pure ()
  | some headline => do
      World.printErrorLine headline
      World.printErrorLine ""
      if r.diagnostic = "" then pure ()
      else
        World.printErrorLine (Text.trimLineFeeds r.diagnostic)
        World.printErrorLine ""

/-- Reports a case if it failed. -/
def announce (r : Finding) : Action World Unit :=
  if r.failed then announceFailure r else pure ()

/-- The summary of a run. -/
def summary (t : Tally) : String :=
  if t.succeeded then
    "SUCCESS: " ++ toString t.tested ++ " tests passed, " ++ toString t.failed ++ " failed, "
      ++ toString t.uncompilable ++ " could not be compiled (" ++ toString t.sources
      ++ " sources total)."
  else
    "FAILURE: Out of " ++ toString t.sources ++ " sources, " ++ toString t.tested ++ " tested, "
      ++ toString t.failed ++ " failed, (" ++ toString t.uncompilable
      ++ " could not be compiled)."

/-- Prints the summary: a success to the standard output, a failure to the error
    stream. -/
def announceSummary (t : Tally) : Action World Unit := do
  World.printLine ""
  if t.succeeded then World.printLine (summary t) else World.printErrorLine (summary t)

/-- The entry of a case. -/
def caseEntry (r : Finding) : Json :=
  .obj
    [("source", .str r.subject.source.text),
      ("input_files", .arr (r.subject.inputs.map fun p => .str p.text)),
      ("verdict", .str r.verdict.label),
      ("message", .str r.message),
      ("diagnostic", .str r.diagnostic)]

/-- The counts of a report. -/
def summaryEntry (t : Tally) : Json :=
  .obj
    [("tested", .int t.tested),
      ("passed", .int t.passed),
      ("failed", .int t.failed),
      ("uncompilable", .int t.uncompilable),
      ("total_sources", .int t.sources),
      ("first_failure", .ofText? (t.firstFailure.map (·.subject.source.text))),
      ("first_failure_verdict", .ofText? (t.firstFailure.map (·.verdict.label)))]

/-- The report of a run. -/
def document (t : Tally) (mode : String) (compiler : Path) : Json :=
  .obj
    [("schema_version", .str "ast_import_report.v1"),
      ("mode", .str mode),
      ("status", .str (if t.succeeded then "succeeded" else "failed")),
      ("compiler", .str compiler.text),
      ("cases", .arr (t.results.map caseEntry)),
      ("summary", summaryEntry t)]

/-- Writes the report of a run. -/
def write (path : Path) (t : Tally) (mode : String) (compiler : Path) : Action World Unit :=
  Workspace.storeDocument path (document t mode compiler)

end RoundTrip.Report
