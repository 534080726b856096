import RoundTrip.World.Command

/-! # The compiler

    The compiler is asked for four things: its version, whether it accepts the
    input files at all (the probe), the document of the input files (the
    export), and the document it makes of a document (the reimport).  Export and
    reimport ask for the same formatting; otherwise comparing their texts would
    mean nothing. -/

namespace RoundTrip

/-- A compiler with the way it is called. -/
structure Compiler where
  path : Path
  /-- The indentation of documents. -/
  indent : Int
  /-- The time limit of each call. -/
  limit : Option Number
  /-- Whether output that is otherwise kept back goes to the error stream. -/
  showErrors : Bool
  deriving DecidableEq

namespace Compiler

/-- The arguments that ask for a document and its formatting. -/
def formatArgs (c : Compiler) : List String :=
  ["--combined-json", "ast", "--pretty-json", "--json-indent", toString c.indent]

/-- A call of the compiler. -/
def command (c : Compiler) (args : List String) (cwd : Path) (stdout stderr : Bool) : Command where
  argv := c.path.text :: args
  cwd := cwd
  limit := c.limit
  forwardsStdout := stdout
  forwardsStderr := stderr

/-- The call that tries whether the input files compile. -/
def probe (c : Compiler) (inputs : List Path) (cwd : Path) : Command :=
  c.command ("--bin" :: inputs.map Path.text) cwd c.showErrors c.showErrors

/-- The call that exports the document of the input files. -/
def exportDocument (c : Compiler) (inputs : List Path) (cwd : Path) : Command :=
  c.command (c.formatArgs ++ inputs.map Path.text) cwd false c.showErrors

/-- The call that imports a document and exports it again. -/
def importDocument (c : Compiler) (document : Path) (cwd : Path) : Command :=
  c.command ("--import-ast" :: (c.formatArgs ++ [document.text])) cwd false false

/-- The call that asks for the version. -/
def version (c : Compiler) : Command :=
  c.command ["--version"] c.path.parent false false

/-- A defect during the version check is an error of the setup. -/
def setupFault : Fault → Fault
  | .defect (.notStarted program reason) => .setup (.compilerNotStarted program reason)
  | e => e

/-- Makes sure that the compiler is there and runs.  Delivers its version. -/
def identify (c : Compiler) : Action World String := do
  let w ← get
  let isThere ← Step.ofExcept Fault.path (w.disk.isFile w.cwd c.path)
  if isThere then
    let result ← Step.catching c.version.run (fun e => throw (setupFault e))
    if result.ok then pure (Text.trim (Text.decode result.stdout))
    else throw (.setup (.compilerUnusable c.path result.exitCode))
  else throw (.setup (.compilerNotFound c.path))

end Compiler

end RoundTrip
