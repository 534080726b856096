import RoundTrip.Text.Utf8
import RoundTrip.World.Basic

/-! # Commands

    A command starts a process, waits for it at most as long as its limit
    allows, and reports how it went.  A process that exits with a failure is
    data for the caller; only one that cannot be started at all is a fault.

    A stream that is forwarded appears on the error stream as it is written and
    is empty in the report. -/

namespace RoundTrip

/-- A process to be started. -/
structure Command where
  argv : List String
  cwd : Path
  /-- How many seconds it may take. -/
  limit : Option Number
  forwardsStdout : Bool
  forwardsStderr : Bool
  deriving DecidableEq

/-- How a process went. -/
structure Invocation where
  argv : List String
  exitCode : Int
  stdout : Bytes
  stderr : Bytes
  /-- Whether it was killed for running out of time. -/
  timedOut : Bool
  milliseconds : Int
  deriving DecidableEq

/-- Whether a process came to a good end.  One that was killed did not,
    whatever its exit code. -/
def Invocation.ok (i : Invocation) : Bool := i.exitCode == 0 && !i.timedOut

/-- Whether a process is killed for running out of time. -/
def Process.timesOut (p : Process) : (limit : Option Number) → Bool
  | some limit => limit.lt p.seconds
  | none => false

/-- How long a process is waited for. -/
def Process.waiting (p : Process) : (limit : Option Number) → Number
  | some limit => if limit.lt p.seconds then limit.atLeastZero else p.seconds
  | none => p.seconds

/-- The exit code of a process that was killed. -/
def Process.killedCode (p : Process) : Int :=
  match p.kill with
  | .gone => p.exitCode
  | .done | .denied => -9

/-- What a process that works on files prints, and its exit code.  `contents` are
    the contents of the files that its words name; there is nothing to do where
    the words are too few. -/
def Process.withContents? (p : Process) (contents : List (Option Bytes)) : Option Process :=
  match p.fileUse, contents.reverse with
  | none, _ => some p
  | some .print, some content :: _ => some { p with stdout := content }
  | some .print, none :: _ => some { p with exitCode := 2 }
  | some .compare, some b :: some a :: _ => some (if a = b then p else { p with exitCode := 1 })
  | some .compare, _ :: _ :: _ => some { p with exitCode := 2 }
  | some .print, [] | some .compare, [] | some .compare, [_] => none

/-- What comes of killing a process, if it is killed.  One that runs out of time
    later than the clock can tell is not. -/
def Process.killed? (p : Process) (limit : Option Number) : Option Kill :=
  if p.timesOut limit && (p.waiting limit).toFloat?.isSome then some p.kill else none

namespace Command

/-- The program that a command runs.  A command line without words names none. -/
def program (c : Command) : Except Fault String :=
  match c.argv with
  | [] => .error .missingWord
  | program :: _ => .ok program

/-- The fault of a process that cannot be started. -/
def startFault (c : Command) (reason : String) : Fault :=
  match c.program with
  | .ok program => .defect (.notStarted program reason)
  | .error e => e

/-- The contents of the files that the arguments name. -/
def contents (c : Command) (d : Disk) (cwd : Path) : List (Option Bytes) :=
  c.argv.map fun (arg : String) => (d.contentOf cwd (c.cwd / arg)).toOption

/-- The record of a start. -/
def spawn (c : Command) (w : World) (limit : Option Number) (killed : Option Kill) : Spawn where
  argv := c.argv
  cwd := c.cwd
  forwardsStdout := c.forwardsStdout
  forwardsStderr := c.forwardsStderr
  limit := limit
  artifacts := Artifact.present w.disk w.cwd c.cwd
  killed := killed

/-- Takes the next process from the script and records its start. -/
def enter (c : Command) (w : World) (disk : Disk) (limit : Option Number)
    (killed : Option Kill) : World :=
  { w with
    disk := disk
    script := w.script.tail
    spawns := w.spawns ++ [c.spawn w limit killed] }

/-- Starts a process: it makes its changes to the disk and writes to the streams
    that are forwarded. -/
def start (c : Command) : Action World Process := do
  let w ← get
  let p := w.script.headD Process.idle
  match p.startError with
  | some reason =>
      -- the entry is used up, but nothing else of it applies
      set (c.enter w w.disk none none)
      throw (c.startFault reason)
  | none =>
      match Effect.applyAll (w.cwd / c.cwd) p.effects w.disk with
      | .error (.os e) d =>
          -- the changes before the refused one stay
          set (c.enter w d none none)
          throw (c.startFault e.message)
      | .error e d =>
          set (c.enter w d none none)
          throw (.path e)
      | .ok () d =>
          -- files are looked at after the changes
          match p.withContents? (c.contents d w.cwd) with
          | none =>
              set (c.enter w d none none)
              throw .missingWord
          | some p =>
              set (c.enter w d c.limit (p.killed? c.limit))
              World.printError (if c.forwardsStdout then Text.decode p.stdout else "")
              World.printError (if c.forwardsStderr then Text.decode p.stderr else "")
              pure p

/-- The whole milliseconds of a duration in seconds. -/
def milliseconds (seconds : Float) : Except Fault Int :=
  match Number.truncate? (seconds * 1000) with
  | some n => .ok n
  | none => .error (.clock (if (seconds * 1000).isInf then .infinite else .notANumber))

/-- Lets time pass. -/
def pass (seconds : Number) : Action World Unit :=
  match seconds.toFloat? with
  | some x => modify fun w => { w with clock := w.clock + x }
  | none => throw (.clock .tooLong)

/-- Runs a command. -/
def run (c : Command) : Action World Invocation := do
  World.log .command
    ("run: " ++ String.intercalate " " c.argv ++ " (cwd=" ++ c.cwd.text ++ ")")
  let began := (← get).clock
  let p ← c.start
  pass (p.waiting c.limit)
  match c.limit, p.timesOut c.limit with
  | some limit, true => do
      let program ← Step.ofExcept id c.program
      World.log .command ("timeout after " ++ limit.text ++ "s: " ++ program)
  | _, _ => pure ()
  let duration ← Step.ofExcept id (milliseconds ((← get).clock - began))
  pure
    { argv := c.argv
      exitCode := if p.timesOut c.limit then p.killedCode else p.exitCode
      stdout := if c.forwardsStdout then [] else p.stdout
      stderr := if c.forwardsStderr then [] else p.stderr
      timedOut := p.timesOut c.limit
      milliseconds := duration }

end Command

end RoundTrip
