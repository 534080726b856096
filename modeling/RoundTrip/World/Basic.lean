import RoundTrip.Disk.Edit
import RoundTrip.Artifact
import RoundTrip.Fault
import RoundTrip.Number.Notation

/-! # The world of a run

    Everything a run can see or change: a disk, the environment, a monotonic
    clock, the console, and the processes it starts.  What a process does is
    written in a script; the k-th process to be started plays the k-th entry,
    and an empty entry once the script is used up.  Each start is entered in
    `spawns`. -/

namespace RoundTrip

/-- A change that a process makes to the disk when it starts.  The paths are
    relative to its directory. -/
inductive Effect where
  | write (path : Path) (content : Bytes)
  | makeDir (path : Path)
  | link (path : Path) (target : String)
  | remove (path : Path)
  deriving DecidableEq

/-- What a process does with the files that its last arguments name. -/
inductive FileUse where
  /-- Prints the last one. -/
  | print
  /-- Compares the last two. -/
  | compare
  deriving DecidableEq, Repr

/-- What comes of an attempt to kill a process group. -/
inductive Kill where
  | done
  /-- The group is gone already. -/
  | gone
  /-- The group may not be killed; the process alone is. -/
  | denied
  deriving DecidableEq, Repr

/-- A process as the script has it. -/
structure Process where
  /-- Why the process cannot be started. -/
  startError : Option String
  effects : List Effect
  fileUse : Option FileUse
  exitCode : Int
  stdout : Bytes
  stderr : Bytes
  /-- How long it runs. -/
  seconds : Number
  kill : Kill
  deriving DecidableEq

/-- The process that does nothing and succeeds at once. -/
def Process.idle : Process where
  startError := none
  effects := []
  fileUse := none
  exitCode := 0
  stdout := []
  stderr := []
  seconds := .int 0
  kill := .done

/-- The start of a process, as it was asked for and as it went. -/
structure Spawn where
  argv : List String
  cwd : Path
  /-- Whether its standard output goes straight to the error stream. -/
  forwardsStdout : Bool
  /-- Whether its error output goes straight to the error stream. -/
  forwardsStderr : Bool
  /-- The time limit it was given; none if the start failed. -/
  limit : Option Number
  /-- What stood under the names of the artifacts when it was started. -/
  artifacts : List (Artifact × Node)
  /-- What came of killing it, if it ran out of time. -/
  killed : Option Kill
  deriving DecidableEq

/-- Everything a run can see or change. -/
structure World where
  disk : Disk
  /-- The current directory. -/
  cwd : Path
  /-- Where workspaces are made. -/
  tempDir : Path
  /-- The directories to which access is denied, absolute and without `..`. -/
  unreadable : List Path
  environment : List (String × String)
  clock : Float
  script : List Process
  spawns : List Spawn
  /-- How many names for workspaces have been tried. -/
  workspaceCount : Nat
  /-- Whether log lines are shown. -/
  verbose : Bool
  stdout : String
  stderr : String

/-- What log lines are about. -/
inductive Topic where
  | command
  | splitting
  | comparison
  | discovery
  | workspace
  | run
  | harness
  deriving DecidableEq, Repr

/-- The label of a topic. -/
def Topic.label : Topic → String
  | .command => "astimport.import_test_program"
  | .splitting => "astimport.import_test_split"
  | .comparison => "astimport.import_test_compare"
  | .discovery => "astimport.import_test_cases"
  | .workspace => "astimport.import_test_fs"
  | .run => "astimport.import_test_run"
  | .harness => "astimport.import_test"

namespace World

/-- Prints a text to the standard output. -/
def print (s : String) : Action World Unit :=
  modify fun w => { w with stdout := w.stdout ++ s }

/-- Prints a text to the error stream. -/
def printError (s : String) : Action World Unit :=
  modify fun w => { w with stderr := w.stderr ++ s }

/-- Prints a line to the standard output. -/
def printLine (s : String) : Action World Unit := print (s ++ "\n")

/-- Prints a line to the error stream. -/
def printErrorLine (s : String) : Action World Unit := printError (s ++ "\n")

/-- Logs a line, which shows only in a verbose run. -/
def log (topic : Topic) (s : String) : Action World Unit :=
  modify fun w =>
    if w.verbose then { w with stderr := w.stderr ++ "DEBUG " ++ topic.label ++ ": " ++ s ++ "\n" }
    else w

/-- Changes the disk.  A refusal is a fault. -/
def edit (change : Path → Disk.Edit Unit) : Action World Unit := fun w =>
  Step.within Fault.path World.disk (fun w d => { w with disk := d }) (change w.cwd) w

end World

/-- Carries out an effect of a process that runs in `cwd`.  Paths are taken as
    text first, so `..` undoes the name before it. -/
def Effect.apply (cwd : Path) : Effect → Disk.Edit Unit
  | .write p content => Disk.writeWithParents cwd ⟨.root, p.normalNames cwd⟩ content
  | .makeDir p => Disk.makeDirs cwd ⟨.root, p.normalNames cwd⟩
  | .link p target => do
      let q : Path := ⟨.root, p.normalNames cwd⟩
      Disk.makeDirs cwd q.parent
      Step.attempt id (Disk.makeLink · cwd q target)
  | .remove p => Step.attempt id (Disk.discard · cwd ⟨.root, p.normalNames cwd⟩)

/-- Carries out effects in order. -/
def Effect.applyAll (cwd : Path) : List Effect → Disk.Edit Unit
  | [] => pure ()
  | e :: es => do
      e.apply cwd
      applyAll cwd es

end RoundTrip
