import RoundTrip.World.Command
import RoundTrip.Disk.Resolve

/-! # The splitter

    A test file may hold several sources in one.  The splitter takes them apart
    into files in its directory and says by its exit code what it found: 0, the
    names of the files; 1, that there is nothing to take apart; 2, that the file
    cannot be decoded.  Any other code means that the splitter itself is
    broken. -/

namespace RoundTrip

/-- What came of splitting a file. -/
inductive Splitting where
  /-- The file was taken apart into these. -/
  | into (files : List Path)
  /-- The file holds a single source. -/
  | single (file : Path)
  /-- The file cannot be decoded; it is used as it is. -/
  | undecodable (message : String)
  /-- The splitter is broken. -/
  | broken (exitCode : Int) (message : String)
  /-- An answer that is none of the others. -/
  | unknown
  deriving DecidableEq, Repr

namespace Splitting

/-- By how many files the input grows. -/
def growth : Splitting → Int
  | .into files => files.length - 1
  | _ => 0

/-- The files to compile for a source. -/
def inputs (source : Path) (splitter : Option Path) : Splitting → Action World (List Path)
  | .into files => pure files
  | .single file => pure [file]
  | .undecodable message => do
      World.printErrorLine ("\n\n" ++ Text.trimEnd message ++ "\n\n")
      World.log .splitting
        ("splitter decode error for " ++ source.text ++ "; falling back to original file")
      pure [source]
  | .broken exitCode message =>
      throw (.defect (.splitterFailed ((splitter.map Path.text).getD "splitter") exitCode message))
  | .unknown => throw .unknownOutcome

end Splitting

namespace Splitter

/-- The interpreter that runs scripts. -/
def interpreter : String := "/usr/bin/python3"

/-- The words that call a splitter.  A script is handed to the interpreter. -/
def argv (splitter source : Path) : List String :=
  if splitter.suffix = ".py" then [interpreter, splitter.text, source.text]
  else [splitter.text, source.text]

/-- The call of a splitter on a source. -/
def command (splitter source dir : Path) (limit : Option Number) : Command where
  argv := argv splitter source
  cwd := dir
  limit := limit
  forwardsStdout := false
  forwardsStderr := false

/-- The files that a splitter names, from the root on and with links
    followed. -/
def resolveNames (dir : Path) (names : List String) (w : World) : Except PathError (List Path) :=
  names.mapM fun (name : String) => w.disk.resolve w.cwd (dir / name)

/-- Splits a source in a directory. -/
def split (splitter : Path) (limit : Option Number) (source dir : Path) :
    Action World Splitting := do
  let result ← (command splitter source dir limit).run
  let output := Text.decode (result.stdout ++ result.stderr)
  if result.timedOut then
    pure (.broken result.exitCode
      ("splitter timed out after " ++ (limit.map Number.text).getD "" ++ "s\n" ++ output))
  else if result.exitCode = 0 then
    let names := Text.wordsOf (Text.decode result.stdout)
    -- success without a single name is no success
    if names.isEmpty then
      pure (.broken 0 ("splitter reported success without output files\n" ++ output))
    else
      let files ← Step.ofExcept Fault.path (resolveNames dir names (← get))
      pure (.into files)
  else if result.exitCode = 1 then pure (.single source)
  else if result.exitCode = 2 then pure (.undecodable output)
  else pure (.broken result.exitCode output)

end Splitter

end RoundTrip
