import RoundTrip.World.Command

/-! # Comparing files

    Two files are compared by an outside tool that exits with 0 if they are the
    same and with 1 if they differ; what it prints is the difference.  Any other
    exit means trouble.  The tool is given as one text and cut into shell
    words. -/

namespace RoundTrip

/-- A tool that compares files. -/
structure Comparator where
  /-- The command without the two files. -/
  words : String
  limit : Option Number
  deriving DecidableEq

/-- What came of a comparison. -/
structure Difference where
  equal : Bool
  output : String
  deriving DecidableEq, Repr

namespace Comparator

/-- The words that compare two files. -/
def argv (t : Comparator) (expected obtained : Path) :
    Except Text.ShellWords.QuotingError (List String) :=
  (Text.ShellWords.split t.words).map (· ++ [expected.text, obtained.text])

/-- Compares two files, in the directory of the first. -/
def compare (t : Comparator) (expected obtained : Path) : Action World Difference := do
  let argv ← Step.ofExcept Fault.quoting (t.argv expected obtained)
  let command : Command := ⟨argv, expected.parent, t.limit, false, false⟩
  let result ← command.run
  let output := Text.decode result.stdout
  -- a tool that was killed says nothing, whatever its exit code
  if !result.timedOut && (result.exitCode == 0 || result.exitCode == 1) then
    World.log .comparison
      ("diff " ++ expected.name ++ " " ++ obtained.name ++ " -> " ++ toString result.exitCode)
    pure ⟨result.exitCode == 0, output⟩
  else
    throw (.defect (.diffFailed t.words result.exitCode (output ++ Text.decode result.stderr)))

end Comparator

end RoundTrip
