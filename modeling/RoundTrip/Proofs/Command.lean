import RoundTrip.Proofs.Invariant
import RoundTrip.World.Command

/-! # What a command does to the world

    However a command ends, it takes one entry from the script, records one
    start, lets the clock go on, writes to the error stream, and changes the disk
    by the effects of the entry or not at all: **`ran_run`**.  Where it
    reports, it reports on the process that the entry plays: `run_eq_ok`. -/

namespace RoundTrip

namespace World

/-- A world in which nothing has happened yet. -/
def fresh (disk : Disk) (cwd : Path) (script : List Process) : World where
  disk := disk
  cwd := cwd
  tempDir := cwd
  unreadable := []
  environment := []
  clock := 0
  script := script
  spawns := []
  workspaceCount := 0
  verbose := false
  stdout := ""
  stderr := ""

/-- A log line shows on the error stream or nowhere. -/
theorem log_apply (topic : Topic) (s : String) (w : World) :
    ∃ stderr, log topic s w = .ok () { w with stderr := stderr } := by
  unfold log
  rw [Step.modify_apply]
  by_cases h : w.verbose = true
  · exact ⟨_, by rw [if_pos h]⟩
  · exact ⟨w.stderr, by rw [if_neg h]⟩

/-- What a started command may have made of a world. -/
structure Ran (c : Command) (w w' : World) : Prop where
  changed : ∃ disk clock stderr limit killed,
    w' = { w with
      disk := disk
      clock := clock
      stderr := stderr
      script := w.script.tail
      spawns := w.spawns ++ [c.spawn w limit killed] }
  disk : w'.disk = w.disk
    ∨ w'.disk = Step.endState
        (Effect.applyAll (w.cwd / c.cwd) (w.script.headD .idle).effects w.disk)

namespace Ran

variable {c : Command} {w w' : World}

theorem cwd_eq (h : Ran c w w') : w'.cwd = w.cwd := by
  obtain ⟨_, _, _, _, _, rfl⟩ := h.changed
  rfl

theorem tempDir_eq (h : Ran c w w') : w'.tempDir = w.tempDir := by
  obtain ⟨_, _, _, _, _, rfl⟩ := h.changed
  rfl

/-- A command takes one entry of the script. -/
theorem script_eq (h : Ran c w w') : w'.script = w.script.tail := by
  obtain ⟨_, _, _, _, _, rfl⟩ := h.changed
  rfl

/-- A command starts one process, and enters it behind the others. -/
theorem spawns_eq (h : Ran c w w') :
    ∃ limit killed, w'.spawns = w.spawns ++ [c.spawn w limit killed] := by
  obtain ⟨_, _, _, limit, killed, rfl⟩ := h.changed
  exact ⟨limit, killed, rfl⟩

/-- The clock and the error stream may go on. -/
theorem go_on (h : Ran c w w') (clock : Float) (stderr : String) :
    Ran c w { w' with clock := clock, stderr := stderr } := by
  obtain ⟨disk, _, _, limit, killed, rfl⟩ := h.changed
  exact ⟨⟨disk, clock, stderr, limit, killed, rfl⟩, h.disk⟩

theorem keeps_log (topic : Topic) (s : String) : Step.Keeps (Ran c w) (log topic s) := by
  intro w' h
  obtain ⟨stderr, hlog⟩ := log_apply topic s w'
  rw [hlog]
  exact h.go_on w'.clock stderr

theorem keeps_pass (seconds : Number) : Step.Keeps (Ran c w) (Command.pass seconds) := by
  unfold Command.pass
  cases seconds.toFloat? with
  | none => exact Step.keeps_throw _
  | some x => exact Step.keeps_modify fun w' h => h.go_on _ w'.stderr

end Ran

end World

namespace Command

open World (Ran)

variable {c : Command} {w w' : World}

/-- The report on a process that took so many milliseconds. -/
def report (c : Command) (p : Process) (milliseconds : Int) : Invocation where
  argv := c.argv
  exitCode := if p.timesOut c.limit then p.killedCode else p.exitCode
  stdout := if c.forwardsStdout then [] else p.stdout
  stderr := if c.forwardsStderr then [] else p.stderr
  timedOut := p.timesOut c.limit
  milliseconds := milliseconds

/-- To enter a start is what a command does at least, with what its process has done to the
    disk. -/
theorem ran_enter (c : Command) (w : World) {disk : Disk} (limit : Option Number)
    (killed : Option Kill)
    (h : disk = w.disk ∨ disk = Step.endState
      (Effect.applyAll (w.cwd / c.cwd) (w.script.headD .idle).effects w.disk)) :
    Ran c w (c.enter w disk limit killed) :=
  ⟨⟨disk, w.clock, w.stderr, limit, killed, rfl⟩, h⟩

/-- How a process is started.  Either it is not, and then it was given no limit, or it is as
    the entry of the script has it, and was given the limit of the command. -/
theorem start_cases (c : Command) (w : World) :
    (∃ e disk, (disk = w.disk ∨ disk = Step.endState
        (Effect.applyAll (w.cwd / c.cwd) (w.script.headD .idle).effects w.disk))
        ∧ c.start w = .error e (c.enter w disk none none))
      ∨ ∃ p contents disk stderr, (w.script.headD .idle).withContents? contents = some p
        ∧ disk = Step.endState
          (Effect.applyAll (w.cwd / c.cwd) (w.script.headD .idle).effects w.disk)
        ∧ c.start w = .ok p
          { c.enter w disk c.limit (p.killed? c.limit) with stderr := stderr } := by
  unfold start
  rw [Step.bind_ok (Step.get_apply w)]
  cases hs : (w.script.headD .idle).startError with
  | some reason => exact Or.inl ⟨_, w.disk, Or.inl rfl, rfl⟩
  | none =>
      cases he : Effect.applyAll (w.cwd / c.cwd) (w.script.headD .idle).effects w.disk with
      | error e d => cases e <;> exact Or.inl ⟨_, d, Or.inr rfl, rfl⟩
      | ok u d =>
          -- the effects are done by now, whether or not the process finds its files
          cases hp : (w.script.headD .idle).withContents? (c.contents d w.cwd) with
          | none =>
              simp only [hp]
              exact Or.inl ⟨_, d, Or.inr rfl, rfl⟩
          | some p =>
              simp only [hp]
              exact Or.inr ⟨p, _, d, _, hp, rfl, rfl⟩

/-- A process that is started has been entered, whether or not it could be. -/
theorem ran_start (c : Command) (w : World) : Ran c w (Step.endState (c.start w)) := by
  obtain ⟨e, disk, hdisk, hstart⟩ | ⟨p, _, disk, stderr, -, hdisk, hstart⟩ := start_cases c w
  · rw [hstart]
    exact ran_enter c w none none hdisk
  · rw [hstart]
    exact (ran_enter c w c.limit (p.killed? c.limit) (Or.inr hdisk)).go_on w.clock stderr

/-- The line that says that a process ran out of time. -/
def logTimeout (c : Command) (p : Process) : Action World Unit :=
  match c.limit, p.timesOut c.limit with
  | some limit, true => do
      let program ← Step.ofExcept id c.program
      World.log .command ("timeout after " ++ limit.text ++ "s: " ++ program)
  | _, _ => pure ()

/-- The end of a command that began at a reading of the clock. -/
def finish (c : Command) (p : Process) (began : Float) : Action World Invocation := do
  let duration ← Step.ofExcept id (milliseconds ((← get).clock - began))
  pure (c.report p duration)

/-- A command as a chain of steps. -/
theorem run_eq (c : Command) : c.run = (do
    World.log .command
      ("run: " ++ String.intercalate " " c.argv ++ " (cwd=" ++ c.cwd.text ++ ")")
    let w ← get
    let p ← c.start
    pass (p.waiting c.limit)
    c.logTimeout p
    c.finish p w.clock) := by
  unfold run logTimeout finish report
  dsimp only
  refine congrArg _ (funext fun _ => congrArg _ (funext fun w => congrArg _ (funext fun p =>
    congrArg _ (funext fun _ => ?_))))
  cases c.limit with
  | none => rfl
  | some limit =>
      cases p.timesOut (some limit) with
      | false => rfl
      | true => rw [bind_assoc]

/-- **However a command ends, it has started one process**, and the effects of its
    entry are all that it may have done to the disk. -/
theorem ran_run (c : Command) (w : World) : Ran c w (Step.endState (c.run w)) := by
  obtain ⟨stderr, hlog⟩ := World.log_apply .command
    ("run: " ++ String.intercalate " " c.argv ++ " (cwd=" ++ c.cwd.text ++ ")") w
  rw [run_eq, Step.bind_ok hlog, Step.bind_ok (Step.get_apply _)]
  have hstart : Ran c w (Step.endState (c.start { w with stderr := stderr })) := by
    obtain ⟨⟨disk, clock, stderr', limit, killed, h⟩, hdisk⟩ :=
      ran_start c { w with stderr := stderr }
    exact ⟨⟨disk, clock, stderr', limit, killed, h⟩, hdisk⟩
  refine Step.endState_bind_of hstart fun p => ?_
  refine Step.keeps_bind (Ran.keeps_pass _) fun _ => ?_
  refine Step.keeps_bind ?_ fun _ => ?_
  · unfold logTimeout
    split
    · exact Step.keeps_bind (Step.keeps_ofExcept _ _) fun _ => Ran.keeps_log _ _
    · exact Step.keeps_pure ()
  · refine Step.keeps_bind Step.keeps_get fun _ => ?_
    exact Step.keeps_bind (Step.keeps_ofExcept _ _) fun _ => Step.keeps_pure _

/-- A command starts one process, however it ends. -/
theorem length_run (c : Command) (w : World) :
    (Step.endState (c.run w)).spawns.length = w.spawns.length + 1 := by
  obtain ⟨limit, killed, hspawns⟩ := (ran_run c w).spawns_eq
  rw [hspawns, List.length_append]
  rfl

/-- A process that was started plays its entry, and was given the limit of the command. -/
theorem start_eq_ok {p : Process} (h : c.start w = .ok p w') :
    (∃ contents, (w.script.headD .idle).withContents? contents = some p)
      ∧ ∃ killed, w'.spawns = w.spawns ++ [c.spawn w c.limit killed] := by
  obtain ⟨e, disk, -, hstart⟩ | ⟨q, contents, disk, stderr, hp, -, hstart⟩ := start_cases c w
  · rw [hstart] at h
    cases h
  · rw [hstart] at h
    cases h
    exact ⟨⟨contents, hp⟩, p.killed? c.limit, rfl⟩

/-- Where a command reports, it has started a process and reports on that. -/
theorem exists_start_of_run {i : Invocation} (h : c.run w = .ok i w') :
    ∃ stderr p u milliseconds, c.start { w with stderr := stderr } = .ok p u
      ∧ i = c.report p milliseconds := by
  obtain ⟨stderr, hlog⟩ := World.log_apply .command
    ("run: " ++ String.intercalate " " c.argv ++ " (cwd=" ++ c.cwd.text ++ ")") w
  rw [run_eq, Step.bind_ok hlog, Step.bind_ok (Step.get_apply _)] at h
  obtain ⟨p, w₁, hstart, h⟩ := Step.bind_eq_ok_iff.mp h
  obtain ⟨-, w₂, -, h⟩ := Step.bind_eq_ok_iff.mp h
  obtain ⟨-, w₃, -, h⟩ := Step.bind_eq_ok_iff.mp h
  unfold finish at h
  rw [Step.bind_ok (Step.get_apply _)] at h
  obtain ⟨duration, w₄, -, h⟩ := Step.bind_eq_ok_iff.mp h
  cases h
  exact ⟨stderr, p, w₁, duration, hstart, rfl⟩

/-- That process is the one that its entry plays. -/
theorem run_eq_ok {i : Invocation} (h : c.run w = .ok i w') :
    ∃ contents p milliseconds, (w.script.headD .idle).withContents? contents = some p
      ∧ i = c.report p milliseconds := by
  obtain ⟨stderr, p, u, milliseconds, hstart, hi⟩ := exists_start_of_run h
  obtain ⟨⟨contents, hp⟩, -⟩ := start_eq_ok hstart
  exact ⟨contents, p, milliseconds, hp, hi⟩

end Command

end RoundTrip
