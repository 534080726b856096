import RoundTrip.CommandLine
import RoundTrip.Discovery
import RoundTrip.Report
import RoundTrip.Case.Run
import RoundTrip.Configuration.Basic

/-! # The round-trip test

    The test checks its setup first: the compiler, the splitter and the
    directories with the sources.  Then it goes through the sources, prints a
    summary, writes a report if one was asked for, and succeeds if no case
    failed.

    `program` is the same from the command line: what is wrong with the setup and
    what goes wrong with the harness is printed, and everything else that ends a
    run is left to the caller. -/

namespace RoundTrip.Harness

/-- The kind of test that there is. -/
def supportedMode : String := "ast"

/-- The mode, if there is a test of this kind. -/
def requireMode (mode : Option String) : Except SetupError String :=
  if mode = some supportedMode then .ok supportedMode else .error .unknownMode

/-- What a run is asked for. -/
structure Options where
  mode : String
  showErrors : Bool
  stopOnFailure : Bool
  /-- Where to write the report. -/
  report : Option Path
  deriving DecidableEq, Repr

/-- The compiler as the configuration has it. -/
def compiler (s : Configuration) (o : Options) : Compiler where
  path := s.compilerPath
  indent := s.jsonIndent
  limit := s.limit
  showErrors := o.showErrors

/-- How the run goes through its sources. -/
def plan (s : Configuration) (o : Options) : Plan where
  split := fun _ => Splitter.split s.splitter s.limit
  splitter := some s.splitter
  compiler := compiler s o
  comparator := ⟨s.diffCommand, s.limit⟩
  stopOnFailure := o.stopOnFailure
  onStart := Report.tick
  onResult := Report.announce

/-- Which names are sources. -/
def criteria (s : Configuration) : Discovery.Criteria := ⟨s.sourceSuffix, s.excludedNames⟩

/-- Checks the setup.  Delivers the sources. -/
def prepare (s : Configuration) (o : Options) : Action World (List Path) := do
  let version ← (compiler s o).identify
  World.log .harness ("compiler " ++ s.compilerPath.text ++ ": " ++ version)
  let w ← get
  let hasSplitter ← Step.ofExcept Fault.path (w.disk.isFile w.cwd s.splitter)
  if hasSplitter then
    let sources ← Discovery.findSources s.testRoots (criteria s)
    World.printLine
      ("Looking at " ++ toString sources.length ++ " " ++ s.sourceSuffix ++ " files...")
    pure sources
  else throw (.setup (.splitterNotFound s.splitter))

/-- Prints the summary and writes the report. -/
def conclude (s : Configuration) (o : Options) (t : Tally) : Action World Unit := do
  Report.announceSummary t
  match o.report with
  | some path => Report.write path t o.mode s.compilerPath
  | none => pure ()

/-- The exit code of a run. -/
def exitCode (t : Tally) : Int := if t.succeeded then 0 else 1

/-- Runs the test. -/
def run (s : Configuration) (o : Options) : Action Session Int := do
  let sources ← Session.inWorld (prepare s o)
  -- results are kept only if a report will need them
  Session.count fun _ => Tally.start sources.length o.report.isSome
  (plan s o).run sources
  let t := (← get).tally
  Session.inWorld (conclude s o t)
  pure (exitCode t)

/-- How the program exits. -/
inductive Exit where
  /-- At the command line, before anything was run. -/
  | atCommandLine (code : Int)
  | afterRun (code : Int)
  deriving DecidableEq, Repr

/-- The exit code of the program. -/
def Exit.code : Exit → Int
  | .atCommandLine code => code
  | .afterRun code => code

/-- Prints a fault of the setup or of the harness.  Any other is left to the
    caller. -/
def explain : Fault → Action World Exit
  | .setup e => do
      World.printErrorLine ("ERROR: " ++ e.message)
      pure (.afterRun 1)
  | .defect e => do
      World.printErrorLine ""
      World.printErrorLine ("ERROR: " ++ e.message)
      if e.output = "" then pure ()
      else World.printErrorLine ("\n\n" ++ Text.trimEnd e.output ++ "\n\n")
      pure (.afterRun 1)
  | e => throw e

/-- Runs what the command line asks for. -/
def runArguments (a : CommandLine.Arguments) : Action Session Exit := do
  let mode ← Step.ofExcept Fault.setup (requireMode a.mode)
  let w := (← get).world
  let configuration ←
    Step.ofExcept Fault.configuration (Configuration.load w.environment [] w.cwd)
  let code ← run configuration ⟨mode, a.showErrors, a.stopOnFailure, a.report⟩
  pure (.afterRun code)

/-- The program. -/
def program (argv : List String) : Action Session Exit :=
  match CommandLine.parse argv with
  | .error e => Session.inWorld do
      World.printError (CommandLine.complaint e)
      pure (.atCommandLine 2)
  | .ok .help => Session.inWorld do
      World.print CommandLine.help
      pure (.atCommandLine 0)
  | .ok (.run a) => do
      Session.inWorld (modify fun w => { w with verbose := w.verbose || a.verbose })
      Step.catching (runArguments a) fun e => Session.inWorld (explain e)

end RoundTrip.Harness
