import RoundTrip.Harness
import RoundTrip.Scenario

/-! # The program

    The program reads a scenario from standard input, runs its command line in
    the world of that scenario and prints what the run printed. -/

open RoundTrip

/-- Runs the command line in the world of a scenario. -/
def main (argv : List String) : IO UInt32 := do
  let stdin ← IO.getStdin
  match Json.parse? (← stdin.readToEnd) with
  | none =>
      IO.eprintln "the scenario is no document"
      pure 3
  | some document =>
      let start := Session.start (Scenario.world document) (Tally.start 0 false)
      let ended := Harness.program argv start
      let world := (Step.endState ended).world
      IO.print world.stdout
      IO.eprint world.stderr
      match Step.outcome ended with
      | .ok exit => pure (UInt32.ofNat exit.code.toNat)
      | .error fault =>
          IO.eprintln fault.message
          pure 1
