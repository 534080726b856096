import RoundTrip.Tool.Splitter
import RoundTrip.Case.Tally
import RoundTrip.Case.Verification

/-! # Running cases

    A run goes through its sources in order.  Each source gets a workspace, is
    split, verified there and counted; then the next one is started, unless a
    failure is to end the run.

    A session holds what a run works on: the world, the tally and a journal of
    what happened.  All three stay as they are when a fault ends the run, so the
    journal tells how far it got. -/

namespace RoundTrip

/-- An entry of the journal. -/
inductive Event where
  | started (source : Path)
  /-- The workspace of the case was made. -/
  | workspace (dir : Path)
  /-- The case was counted; the tally is the one after it. -/
  | finished (result : Finding) (tally : Tally)
  deriving DecidableEq, Repr

/-- What a run works on. -/
structure Session where
  world : World
  tally : Tally
  journal : List Event

namespace Session

/-- A session before its first case. -/
def start (w : World) (t : Tally) : Session := ⟨w, t, []⟩

/-- Runs a step on the world of a session. -/
def inWorld {α : Type} (x : Action World α) : Action Session α :=
  Step.within id world (fun s w => { s with world := w }) x

/-- Makes an entry in the journal. -/
def note (e : Event) : Action Session Unit :=
  modify fun s => { s with journal := s.journal ++ [e] }

/-- Changes the tally. -/
def count (f : Tally → Tally) : Action Session Unit :=
  modify fun s => { s with tally := f s.tally }

end Session

/-- How a run goes through its sources. -/
structure Plan where
  /-- Splits the n-th source in a workspace. -/
  split : (number : Nat) → (source dir : Path) → Action World Splitting
  /-- The splitter to name in messages. -/
  splitter : Option Path
  compiler : Compiler
  comparator : Comparator
  /-- Whether the first failure ends the run. -/
  stopOnFailure : Bool
  /-- What happens before a case. -/
  onStart : Path → Action World Unit
  /-- What happens after a case. -/
  onResult : Finding → Action World Unit

namespace Plan

/-- What is done for a source within its workspace. -/
def examine (p : Plan) (number : Nat) (source dir : Path) : Action Session Finding := do
  Session.note (.workspace dir)
  let splitting ← Session.inWorld (p.split number source dir)
  let inputs ← Session.inWorld (splitting.inputs source p.splitter)
  -- only an outcome that delivers input files changes the number of sources
  Session.count (·.addSources splitting.growth)
  Session.inWorld (Verification.verify ⟨source, inputs⟩ p.compiler p.comparator dir)

/-- Goes through one case.  Its workspace is removed whichever way the case
    ends, and only then is the result counted. -/
def tryCase (p : Plan) (number : Nat) (source : Path) : Action Session Finding := do
  let dir ← Session.inWorld (Workspace.enter Workspace.defaultStem)
  let result ←
    Step.ensuring (p.examine number source dir) (Session.inWorld (Workspace.leave dir))
  Session.count (·.add result)
  Session.inWorld (World.log .run ("case " ++ source.text ++ " -> " ++ result.verdict.label))
  pure result

/-- Goes through one case, with what happens before and after it. -/
def step (p : Plan) (number : Nat) (source : Path) : Action Session Finding := do
  Session.note (.started source)
  Session.inWorld (p.onStart source)
  let result ← p.tryCase number source
  Session.note (.finished result (← get).tally)
  Session.inWorld (p.onResult result)
  pure result

/-- Goes through sources, of which the first has a number. -/
def runFrom (p : Plan) (number : Nat) : List Path → Action Session Unit
  | [] => pure ()
  | source :: rest => do
      let result ← p.step number source
      if p.stopOnFailure && result.failed then
        Session.inWorld (World.log .run ("stopping after first failure: " ++ source.text))
      else p.runFrom (number + 1) rest

/-- Goes through sources. -/
def run (p : Plan) (sources : List Path) : Action Session Unit := p.runFrom 0 sources

end Plan

end RoundTrip
