import RoundTrip.Disk.Edit
import RoundTrip.Configuration.Field
import RoundTrip.Text.ShellWords

/-! # Faults

    What is wrong with an input under test is a verdict and no fault.  A fault
    ends a run: either the setup is wrong, which shows before the first case is
    started, or the harness itself fails in the middle of a run, or the disk,
    the clock or the configuration does. -/

namespace RoundTrip

/-- The command line that selects the round-trip test. -/
def usageHint : String := "ast-import-test ast [--show-errors]"

/-- What is wrong with the setup. -/
inductive SetupError where
  | unknownMode
  | compilerNotFound (compiler : Path)
  /-- The compiler could not be started. -/
  | compilerNotStarted (program reason : String)
  | compilerUnusable (compiler : Path) (exitCode : Int)
  | splitterNotFound (splitter : Path)
  | noReadableRoot (roots : List Path)
  deriving DecidableEq, Repr

/-- What can go wrong with the harness in the middle of a run. -/
inductive Defect where
  | notStarted (program reason : String)
  | artifactExists (name : String)
  | notWritten (path : Path) (error : OsError)
  | splitterFailed (tool : String) (exitCode : Int) (output : String)
  | diffFailed (command : String) (exitCode : Int) (output : String)
  deriving DecidableEq, Repr

/-- Why a duration cannot be measured. -/
inductive ClockError where
  /-- It is longer than the clock can tell. -/
  | tooLong
  /-- It is infinite, so it has no whole number of milliseconds. -/
  | infinite
  | notANumber
  deriving DecidableEq, Repr

/-- What ends a run. -/
inductive Fault where
  | setup (e : SetupError)
  | defect (e : Defect)
  | path (e : PathError)
  | quoting (e : Text.ShellWords.QuotingError)
  | configuration (e : Configuration.LoadError)
  /-- No name for a workspace is free. -/
  | noWorkspaceName
  | clock (e : ClockError)
  /-- A command line has fewer words than it is asked for. -/
  | missingWord
  /-- A splitter answered nothing that is known. -/
  | unknownOutcome
  deriving DecidableEq, Repr

/-- The message for a program that could not be started. -/
def notStartedMessage (program reason : String) : String :=
  "Cannot execute " ++ program ++ ": " ++ reason

/-- The text of a setup error. -/
def SetupError.message : SetupError → String
  | .unknownMode =>
      "Unknown import test type. Aborting. Please specify " ++ usageHint ++ "."
  | .compilerNotFound compiler => "Compiler not found: " ++ compiler.text
  | .compilerNotStarted program reason => notStartedMessage program reason
  | .compilerUnusable compiler exitCode =>
      "Compiler not usable: " ++ compiler.text ++ " --version exited with " ++ toString exitCode
  | .splitterNotFound splitter => "Source splitter not found: " ++ splitter.text
  | .noReadableRoot [] => "No readable test directories: <none>"
  | .noReadableRoot roots =>
      "No readable test directories: " ++ String.intercalate ", " (roots.map Path.text)

/-- The text of a defect. -/
def Defect.message : Defect → String
  | .notStarted program reason => notStartedMessage program reason
  | .artifactExists name => name ++ " already exists. Refusing to overwrite."
  | .notWritten path error => "write_bytes_failed:" ++ path.text ++ ":" ++ error.message
  | .splitterFailed tool exitCode _ =>
      "Got unexpected return code " ++ toString exitCode ++ " from " ++ tool ++ ". Aborting."
  | .diffFailed command exitCode _ =>
      "Diff tool failed with exit code " ++ toString exitCode ++ ": " ++ command

/-- The exit code that a defect carries. -/
def Defect.exitCode? : Defect → Option Int
  | .splitterFailed _ exitCode _ => some exitCode
  | .diffFailed _ exitCode _ => some exitCode
  | _ => none

/-- The output that a defect carries. -/
def Defect.output : Defect → String
  | .splitterFailed _ _ output => output
  | .diffFailed _ _ output => output
  | _ => ""

/-- The text of a clock error. -/
def ClockError.message : ClockError → String
  | .tooLong => "int too large to convert to float"
  | .infinite => "cannot convert float infinity to integer"
  | .notANumber => "cannot convert float NaN to integer"

/-- The text of a fault. -/
def Fault.message : Fault → String
  | .setup e => e.message
  | .defect e => e.message
  | .path e => e.message
  | .quoting e => e.message
  | .configuration e => e.message
  | .noWorkspaceName => "[Errno 17] No usable temporary directory name found"
  | .clock e => e.message
  | .missingWord => "list index out of range"
  | .unknownOutcome => "unknown split outcome: None"

/-- A step that can end in a fault. -/
abbrev Action (σ α : Type) := Step Fault σ α

end RoundTrip
