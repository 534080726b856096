import RoundTrip.Proofs.Progress
import RoundTrip.Proofs.Retention

/-! # How the program exits

    Where the clock can tell how long each process takes (`World.Timely`), a command ends
    in no fault of the clock, so a run ends in the faults of its setup and of its cases
    only (`Harness.run_faults`).  The program explains an error of the setup and a defect,
    and leaves the others to its caller.

    It exits with 0 exactly if a run came to its end without a failure.  Where it explains
    something, the run has printed nothing but its progress and written no report
    (`Harness.onlyProgress_goThrough`, `Harness.world_withoutReport`):
    **`Harness.program_exits`**. -/

namespace RoundTrip

open Step (Meets endState)

/-! ## Time -/

namespace World

variable {limit : Option Number} {w w' : World}

/-- The n-th of the processes that are still to come. -/
def entry (w : World) (n : Nat) : Process := (w.script.drop n).headD .idle

/-- What the clock reads before the n-th process, if all before it were waited for. -/
def reading (limit : Option Number) (w : World) : Nat → Float
  | 0 => w.clock
  | n + 1 => reading limit w n + ((w.entry n).waiting limit).toFloat?.getD 0

/-- The clock can tell how long each process takes: each one that is still to come is waited for
    a number of seconds that is finite in milliseconds too (`Process.Timed`), whatever the clock
    reads by then. -/
def Timely (limit : Option Number) (w : World) : Prop :=
  ∀ n, (w.entry n).Timed limit (w.reading limit n)

/-- What is played next depends on the script. -/
theorem entry_congr (hscript : w'.script = w.script) (n : Nat) : w'.entry n = w.entry n := by
  unfold entry
  rw [hscript]

/-- What the clock reads depends on the clock and the script. -/
theorem reading_congr (hclock : w'.clock = w.clock) (hscript : w'.script = w.script) (n : Nat) :
    w'.reading limit n = w.reading limit n := by
  induction n with
  | zero => exact hclock
  | succ n ih => rw [reading, reading, ih, entry_congr hscript]

theorem Timely.congr (h : w.Timely limit) (hclock : w'.clock = w.clock)
    (hscript : w'.script = w.script) : w'.Timely limit := by
  intro n
  rw [entry_congr hscript, reading_congr hclock hscript]
  exact h n

/-- After a process was waited for, the next is the first. -/
theorem entry_of_waited (h : Command.Waited limit w w') (n : Nat) :
    w'.entry n = w.entry (n + 1) := by
  unfold entry
  rw [h.script_eq, List.drop_tail]

/-- After a command the readings to come are those that came after its own. -/
theorem reading_of_waited (h : Command.Waited limit w w') (n : Nat) :
    w'.reading limit n = w.reading limit (n + 1) := by
  induction n with
  | zero =>
      obtain ⟨x, hx, hclock⟩ := h.clock
      show w'.clock = w.clock + ((w.script.headD .idle).waiting limit).toFloat?.getD 0
      rw [hx, hclock]
      rfl
  | succ n ih => rw [reading, ih, entry_of_waited h, reading.eq_2 limit w (n + 1)]

/-- A world stays timely when a process was waited for. -/
theorem Timely.waited (h : w.Timely limit) (hw : Command.Waited limit w w') :
    w'.Timely limit := by
  intro n
  rw [entry_of_waited hw, reading_of_waited hw]
  exact h (n + 1)

/-- Processes that take no time are timely. -/
theorem timely_of_instant (hclock : w.clock = 0) (hscript : ∀ p ∈ w.script, p.seconds = .int 0)
    (limit : Option Number) : w.Timely limit := by
  have hseconds : ∀ n, (w.entry n).seconds = .int 0 := by
    intro n
    unfold entry
    cases hrest : w.script.drop n with
    | nil => rfl
    | cons p rest =>
        have hp : p ∈ w.script.drop n := by rw [hrest]; exact List.mem_cons_self
        exact hscript p (List.mem_of_mem_drop hp)
  -- a limit below zero is over at once, and any other is not reached: the time is zero either
  -- way
  have hwaiting : ∀ n, ((w.entry n).waiting limit).toFloat? = some 0 := by
    intro n
    have hint : (w.entry n).waiting limit = .int 0 := by
      unfold Process.waiting
      rw [hseconds n]
      cases limit with
      | none => rfl
      | some l =>
          dsimp only
          by_cases hl : l.lt (.int 0) = true
          · rw [if_pos hl, Number.atLeastZero, if_pos hl]
          · rw [if_neg hl]
    rw [hint]
    decide +kernel
  have hreading : ∀ n, w.reading limit n = 0 := by
    intro n
    induction n with
    | zero => exact hclock
    | succ n ih =>
        rw [reading, ih, hwaiting n]
        decide +kernel
  have hnow : Number.truncate? ((0 + 0 - 0 : Float) * 1000) = some 0 := by decide +kernel
  intro n
  refine ⟨0, hwaiting n, 0, ?_⟩
  unfold Command.milliseconds
  rw [hreading n, hnow]

/-- Where each process takes as long as the clock can tell, the clock is no fault. -/
theorem onSchedule_timely (limit : Option Number) : OnSchedule (Timely limit) False limit where
  frame := fun _ _ hclock hscript h => h.congr hclock hscript
  run := by
    rintro c rfl hargv w hw
    have hrun := Command.meets_run hargv w
    cases hr : c.run w with
    | ok i w' => exact .ok (hw.waited (hrun.of_eq_ok rfl hr))
    | error e w' => exact .error ((hrun.of_eq_error rfl hr).mono fun hn => hn (hw 0))

end World

/-! ## What a run ends in -/

namespace Harness

variable {s : Configuration} {o : Options} {w : World} {t : Tally} {s' : Session}

/-- A run ends in an error of its setup or in a fault of its cases.  Where the world is timely,
    the clock is not among them. -/
theorem run_faults {e : Fault} (hw : w.Timely s.limit)
    (h : run s o (Session.start w t) = .error e s') : e.OfSetup False ∨ e.OfCase False := by
  have hschedule := World.onSchedule_timely s.limit
  obtain h | ⟨s₁, -, hpath⟩ := run_eq_error h
  · obtain ⟨w', hprepare, -⟩ | ⟨sources, w₁, hprepare, hcases⟩ := goThrough_eq_error h
    · exact Or.inl ((hschedule.meets_prepare o).of_eq_error hw hprepare)
    · have hw₁ := (hschedule.meets_prepare o).of_eq_ok hw hprepare
      exact Or.inr ((hschedule.meets_run o sources).of_eq_error hw₁ hcases)
  · exact Or.inr hpath.ofCase

/-- A run exits with 0 if none of its results is a failure, and otherwise with 1. -/
theorem run_code {code : Int} (h : run s o (Session.start w t) = .ok code s') :
    (code = 0 ∨ code = 1) ∧ (code = 0 ↔ ∀ r ∈ s'.findings, r.verdict ∉ Verdict.failures) := by
  rw [run_eq] at h
  obtain ⟨_, s₁, hcases, h⟩ := Step.bind_eq_ok_iff.mp h
  obtain ⟨_, s₂, hget, h⟩ := Step.bind_eq_ok_iff.mp h
  cases hget
  obtain ⟨_, s₃, hconclude, hpure⟩ := Step.bind_eq_ok_iff.mp h
  obtain ⟨w', -, rfl⟩ := Session.inWorld_eq_ok hconclude
  cases hpure
  obtain ⟨sources, w₀, -, hcounted, -⟩ := goThrough_eq_ok hcases
  exact ⟨exitCode_zero_or_one _, (exitCode_eq_zero_iff _).trans hcounted.succeeded_iff⟩

/-! ## The program -/

/-- The faults that the program leaves to its caller. -/
inductive Escapes (w : World) : Fault → Prop where
  | configuration {e : Configuration.LoadError}
      (h : Configuration.load w.environment [] w.cwd = .error e) : Escapes w (.configuration e)
  | path (e : PathError) : Escapes w (.path e)
  | quoting (e : Text.ShellWords.QuotingError) : Escapes w (.quoting e)
  | noWorkspaceName : Escapes w .noWorkspaceName

/-- The faults that the program explains. -/
inductive Explained : Fault → Prop where
  | setup (e : SetupError) : Explained (.setup e)
  | defect (d : Defect) : Explained (.defect d)

/-- What is printed of a fault that is explained. -/
def explanation : Fault → String
  | .setup e => "ERROR: " ++ e.message ++ "\n"
  | .defect d =>
      "\n" ++ ("ERROR: " ++ d.message ++ "\n")
        ++ (if d.output = "" then "" else "\n\n" ++ Text.trimEnd d.output ++ "\n\n" ++ "\n")
  | _ => ""

/-- A session after a fault was explained: nothing but the error stream has changed. -/
def told (e : Fault) (s : Session) : Session :=
  { s with world := { s.world with stderr := s.world.stderr ++ explanation e } }

/-- A defect is told on the error stream with the output that it quotes. -/
theorem explain_defect (d : Defect) (w : World) :
    explain (.defect d) w
      = .ok (.afterRun 1) { w with stderr := w.stderr ++ explanation (.defect d) } := by
  have hlines : explain (.defect d) w
      = (if d.output = "" then pure (.afterRun 1) else do
          World.printErrorLine ("\n\n" ++ Text.trimEnd d.output ++ "\n\n")
          pure (.afterRun 1) : Action World Exit)
        { w with stderr := w.stderr ++ "\n" ++ ("ERROR: " ++ d.message ++ "\n") } := rfl
  rw [hlines, explanation]
  by_cases houtput : d.output = ""
  · rw [if_pos houtput, if_pos houtput, String.append_empty]
    simp only [Step.pure_apply, String.append_assoc]
  · have hblock : World.printErrorLine ("\n\n" ++ Text.trimEnd d.output ++ "\n\n")
        { w with stderr := w.stderr ++ "\n" ++ ("ERROR: " ++ d.message ++ "\n") }
        = .ok ⟨⟩ { w with
          stderr := w.stderr ++ "\n" ++ ("ERROR: " ++ d.message ++ "\n")
            ++ ("\n\n" ++ Text.trimEnd d.output ++ "\n\n" ++ "\n") } := rfl
    rw [if_neg houtput, if_neg houtput, Step.bind_ok hblock]
    simp only [Step.pure_apply, String.append_assoc]

/-- Every explained fault ends the program with a one. -/
theorem explain_of_explained {e : Fault} (he : Explained e) (s : Session) :
    Session.inWorld (explain e) s = .ok (.afterRun 1) (told e s) := by
  cases he with
  | setup e => rfl
  | defect d => exact Session.inWorld_of_ok (explain_defect d s.world)

/-- What ends a run is explained, or it is one of the faults that escape. -/
theorem escapes_or_explained {e : Fault} (h : e.OfSetup False ∨ e.OfCase False) (w : World) :
    Escapes w e ∨ Explained e := by
  obtain h | h := h
  · cases h with
    | setup e => exact Or.inr (.setup e)
    | path e => exact Or.inl (.path e)
    | clock h e => exact h.elim
  · cases h with
    | defect d => exact Or.inr (.defect d)
    | path e => exact Or.inl (.path e)
    | quoting e => exact Or.inl (.quoting e)
    | noWorkspaceName => exact Or.inl .noWorkspaceName
    | clock h e => exact h.elim

/-- Any other fault is left as it is. -/
theorem explain_of_not_explained {e : Fault} (he : ¬ Explained e) (s : Session) :
    Session.inWorld (explain e) s = .error e s := by
  cases e with
  | setup e => exact absurd (.setup e) he
  | defect d => exact absurd (.defect d) he
  | _ => rfl

theorem not_explained_of_escapes {e : Fault} (he : Escapes w e) : ¬ Explained e := by
  intro h
  cases h with
  | setup e => cases he
  | defect d => cases he

theorem requireMode_eq_ok_iff {mode? : Option String} {mode : String} :
    requireMode mode? = .ok mode ↔ mode? = some "ast" ∧ mode = "ast" := by
  unfold requireMode supportedMode
  by_cases h : mode? = some "ast"
  · rw [if_pos h]
    constructor
    · intro hok
      cases hok
      exact ⟨h, rfl⟩
    · rintro ⟨-, rfl⟩
      rfl
  · rw [if_neg h]
    constructor
    · intro hok
      cases hok
    · exact fun hmode => absurd hmode.1 h

/-- The world in which arguments are run. -/
def atRun (a : CommandLine.Arguments) (w : World) : World :=
  { w with verbose := w.verbose || a.verbose }

/-- What arguments ask a run for. -/
def optionsOf (a : CommandLine.Arguments) (mode : String) : Options :=
  ⟨mode, a.showErrors, a.stopOnFailure, a.report⟩

section Program

variable {argv : List String} {a : CommandLine.Arguments}

/-- A command line that asks for a run leads to one, with its faults caught. -/
theorem program_of_run (h : CommandLine.parse argv = .ok (.run a)) (w : World) (t : Tally) :
    program argv (Session.start w t)
      = Step.catching (runArguments a) (fun e => Session.inWorld (explain e))
        (Session.start (atRun a w) t) := by
  unfold program
  rw [h]
  rfl

/-- A fault of the run is handed to the explanation. -/
theorem program_of_error {e : Fault} {s₁ : Session} (h : CommandLine.parse argv = .ok (.run a))
    (hrun : runArguments a (Session.start (atRun a w) t) = .error e s₁) :
    program argv (Session.start w t) = Session.inWorld (explain e) s₁ := by
  rw [program_of_run h]
  unfold Step.catching
  rw [hrun]

theorem program_of_ok {exit : Exit} {s₁ : Session} (h : CommandLine.parse argv = .ok (.run a))
    (hrun : runArguments a (Session.start (atRun a w) t) = .ok exit s₁) :
    program argv (Session.start w t) = .ok exit s₁ := by
  rw [program_of_run h]
  unfold Step.catching
  rw [hrun]

/-- A mode that is not known ends the run before the settings are read. -/
theorem runArguments_of_unknown {e : SetupError} (h : requireMode a.mode = .error e) (s : Session) :
    runArguments a s = .error (.setup e) s := by
  unfold runArguments
  rw [h]
  rfl

theorem runArguments_of_unloaded {e : Configuration.LoadError} {s : Session}
    (hmode : a.mode = some "ast")
    (h : Configuration.load s.world.environment [] s.world.cwd = .error e) :
    runArguments a s = .error (.configuration e) s := by
  unfold runArguments
  rw [requireMode_eq_ok_iff.mpr ⟨hmode, rfl⟩]
  show (Step.ofExcept Fault.configuration
    (Configuration.load s.world.environment [] s.world.cwd) >>= _) s = _
  rw [h]
  rfl

/-- With a known mode and good settings the harness is run. -/
theorem runArguments_of_loaded {c : Configuration} {s : Session} (hmode : a.mode = some "ast")
    (h : Configuration.load s.world.environment [] s.world.cwd = .ok c) :
    runArguments a s = (run c (optionsOf a "ast") >>= fun code => pure (.afterRun code)) s := by
  unfold runArguments
  rw [requireMode_eq_ok_iff.mpr ⟨hmode, rfl⟩]
  show (Step.ofExcept Fault.configuration
    (Configuration.load s.world.environment [] s.world.cwd) >>= _) s = _
  rw [h]
  rfl

/-- How the program goes: it ends at the command line; or the mode is refused; or the
    configuration cannot be read; or there is a run. -/
theorem program_cases (argv : List String) (w : World) (t : Tally) :
    (∃ code s', program argv (Session.start w t) = .ok (.atCommandLine code) s'
        ∧ (code = 0 ∨ code = 2))
      ∨ ∃ a, CommandLine.parse argv = .ok (.run a)
        ∧ ((∃ e, requireMode a.mode = .error e ∧ program argv (Session.start w t)
              = .ok (.afterRun 1) (told (.setup e) (Session.start (atRun a w) t)))
          ∨ a.mode = some "ast"
            ∧ ((∃ e, Configuration.load w.environment [] w.cwd = .error e
                ∧ program argv (Session.start w t)
                  = .error (.configuration e) (Session.start (atRun a w) t))
              ∨ ∃ c, Configuration.load w.environment [] w.cwd = .ok c)) := by
  -- the ends before a run, in the order in which the program checks: its words, the mode, the
  -- settings
  cases hparse : CommandLine.parse argv with
  | error e =>
      refine Or.inl ⟨2, Session.start { w with stderr := w.stderr ++ CommandLine.complaint e } t,
        ?_, Or.inr rfl⟩
      unfold program
      rw [hparse]
      rfl
  | ok request =>
      cases request with
      | help =>
          refine Or.inl ⟨0, Session.start { w with stdout := w.stdout ++ CommandLine.help } t,
            ?_, Or.inl rfl⟩
          unfold program
          rw [hparse]
          rfl
      | run a =>
          refine Or.inr ⟨a, rfl, ?_⟩
          cases hmode : requireMode a.mode with
          | error e =>
              refine Or.inl ⟨e, rfl, ?_⟩
              rw [program_of_error hparse (runArguments_of_unknown hmode _)]
              rfl
          | ok mode =>
              obtain ⟨hmode, -⟩ := requireMode_eq_ok_iff.mp hmode
              refine Or.inr ⟨hmode, ?_⟩
              cases hload : Configuration.load w.environment [] w.cwd with
              | ok c => exact Or.inr ⟨c, rfl⟩
              | error e =>
                  refine Or.inl ⟨e, rfl, ?_⟩
                  rw [program_of_error hparse (runArguments_of_unloaded hmode hload)]
                  rfl

/-- A run that comes to its end gives the program its exit code. -/
theorem program_of_run_ok {c : Configuration} {code : Int}
    (hparse : CommandLine.parse argv = .ok (.run a)) (hmode : a.mode = some "ast")
    (hload : Configuration.load w.environment [] w.cwd = .ok c)
    (h : run c (optionsOf a "ast") (Session.start (atRun a w) t) = .ok code s') :
    program argv (Session.start w t) = .ok (.afterRun code) s' := by
  refine program_of_ok hparse ?_
  rw [runArguments_of_loaded hmode hload, Step.bind_ok h]
  rfl

/-- Put together: the fault of a run is explained at the end of the program. -/
theorem program_of_run_error {c : Configuration} {e : Fault}
    (hparse : CommandLine.parse argv = .ok (.run a)) (hmode : a.mode = some "ast")
    (hload : Configuration.load w.environment [] w.cwd = .ok c)
    (h : run c (optionsOf a "ast") (Session.start (atRun a w) t) = .error e s') :
    program argv (Session.start w t) = Session.inWorld (explain e) s' := by
  refine program_of_error hparse ?_
  rw [runArguments_of_loaded hmode hload, Step.bind_error h]

end Program

/-- A way for the program to end: at the command line, with 0 or 1 after a run, or with a
    fault of the configuration, of the disk, of a path or of a text, which is left to the
    caller. -/
inductive Proper (w : World) : EStateM.Result Fault Session Exit → Prop where
  | atCommandLine {code : Int} {s : Session} (h : code = 0 ∨ code = 2) :
      Proper w (.ok (.atCommandLine code) s)
  | afterRun {code : Int} {s : Session} (h : code = 0 ∨ code = 1) :
      Proper w (.ok (.afterRun code) s)
  | escapes {e : Fault} {s : Session} (h : Escapes w e) : Proper w (.error e s)

/-- The command line asks for the run that there is, and this comes to its end, its report
    included, with no result that is a failure. -/
def RunSucceeds (argv : List String) (w : World) (t : Tally) : Prop :=
  ∃ a c code s', CommandLine.parse argv = .ok (.run a) ∧ a.mode = some "ast"
    ∧ Configuration.load w.environment [] w.cwd = .ok c
    ∧ run c (optionsOf a "ast") (Session.start (atRun a w) t) = .ok code s'
    ∧ ∀ r ∈ s'.findings, r.verdict ∉ Verdict.failures

/-- How the program exits for a command line in a world. -/
structure Exits (argv : List String) (w : World) (t : Tally) : Prop where
  ends : Proper w (program argv (Session.start w t))
  zero_iff : (∃ s', program argv (Session.start w t) = .ok (.afterRun 0) s')
    ↔ RunSucceeds argv w t
  /-- A mode that is refused is explained, and nothing was run. -/
  mode_refused : ∀ a e, CommandLine.parse argv = .ok (.run a) → requireMode a.mode = .error e →
    program argv (Session.start w t)
      = .ok (.afterRun 1) (told (.setup e) (Session.start (atRun a w) t))
  /-- An error of the setup and a defect are explained.  The run was still going through
      its cases then: it has printed no summary, since all that shows of it is progress, and
      written no report, since it leaves the world as it is where none was asked for. -/
  run_explained : ∀ a c e s', CommandLine.parse argv = .ok (.run a) → a.mode = some "ast" →
    Configuration.load w.environment [] w.cwd = .ok c →
    run c (optionsOf a "ast") (Session.start (atRun a w) t) = .error e s' → Explained e →
    goThrough c (optionsOf a "ast") (Session.start (atRun a w) t) = .error e s'
      ∧ OnlyProgress c w.stdout s'.world
      ∧ s'.world = (endState (run c (optionsOf a "ast").withoutReport
        (Session.start (atRun a w) t))).world
      ∧ program argv (Session.start w t) = .ok (.afterRun 1) (told e s')

/-- A summary and a report come after all cases. -/
theorem goThrough_of_explained {s₀ : Session} {e : Fault} (h : run s o s₀ = .error e s')
    (he : Explained e) : goThrough s o s₀ = .error e s' := by
  obtain hcases | ⟨s₁, -, hpath⟩ := run_eq_error h
  · exact hcases
  · cases hpath with
    | path e => cases he

variable {argv : List String}

/-- Every end of the program is a proper one. -/
theorem program_ends
    (htime : ∀ c, Configuration.load w.environment [] w.cwd = .ok c → w.Timely c.limit) :
    Proper w (program argv (Session.start w t)) := by
  obtain ⟨code, s', hend, hcode⟩ | ⟨a, hparse, hcases⟩ := program_cases argv w t
  · rw [hend]
    exact .atCommandLine hcode
  obtain ⟨e, -, hend⟩ | ⟨hmode, ⟨e, hload, hend⟩ | ⟨c, hload⟩⟩ := hcases
  · rw [hend]
    exact .afterRun (Or.inr rfl)
  · rw [hend]
    exact .escapes (.configuration hload)
  cases hrun : run c (optionsOf a "ast") (Session.start (atRun a w) t) with
  | ok code s' =>
      rw [program_of_run_ok hparse hmode hload hrun]
      exact .afterRun (run_code hrun).1
  | error e s' =>
      rw [program_of_run_error hparse hmode hload hrun]
      have htimely : (atRun a w).Timely c.limit := (htime c hload).congr rfl rfl
      -- the fault of a run is explained with a one, or it is of a kind that is not caught
      obtain hescapes | hexplained := escapes_or_explained (run_faults htimely hrun) w
      · rw [explain_of_not_explained (not_explained_of_escapes hescapes)]
        exact .escapes hescapes
      · rw [explain_of_explained hexplained]
        exact .afterRun (Or.inr rfl)

/-- The exit code is zero after a run exactly if the run has succeeded. -/
theorem program_zero_iff : (∃ s', program argv (Session.start w t) = .ok (.afterRun 0) s')
    ↔ RunSucceeds argv w t := by
  constructor
  · rintro ⟨s', hzero⟩
    -- a zero after the run excludes all ends but that of the run itself
    obtain ⟨code, s₁, hend, -⟩ | ⟨a, hparse, hcases⟩ := program_cases argv w t
    · rw [hend] at hzero
      cases hzero
    obtain ⟨e, -, hend⟩ | ⟨hmode, ⟨e, -, hend⟩ | ⟨c, hload⟩⟩ := hcases
    · rw [hend] at hzero
      cases hzero
    · rw [hend] at hzero
      cases hzero
    cases hrun : run c (optionsOf a "ast") (Session.start (atRun a w) t) with
    | ok code s₁ =>
        rw [program_of_run_ok hparse hmode hload hrun] at hzero
        cases hzero
        exact ⟨a, c, 0, s', hparse, hmode, hload, hrun, (run_code hrun).2.mp rfl⟩
    | error e s₁ =>
        rw [program_of_run_error hparse hmode hload hrun] at hzero
        by_cases he : Explained e
        · rw [explain_of_explained he] at hzero
          cases hzero
        · rw [explain_of_not_explained he] at hzero
          cases hzero
  · rintro ⟨a, c, code, s', hparse, hmode, hload, hrun, hnone⟩
    obtain rfl := (run_code hrun).2.mpr hnone
    exact ⟨s', program_of_run_ok hparse hmode hload hrun⟩

/-- **How the program exits**, for every command line and every world in whose script no
    process takes longer than the clock can tell, that is in milliseconds. -/
theorem program_exits (argv : List String) (w : World) (t : Tally)
    (htime : ∀ c, Configuration.load w.environment [] w.cwd = .ok c → w.Timely c.limit) :
    Exits argv w t where
  ends := program_ends htime
  zero_iff := program_zero_iff
  mode_refused := by
    intro a e hparse hmode
    rw [program_of_error hparse (runArguments_of_unknown hmode _)]
    rfl
  run_explained := by
    intro a c e s' hparse hmode hload hrun he
    have hcases := goThrough_of_explained hrun he
    have hprogress := onlyProgress_goThrough c (optionsOf a "ast") (Session.start (atRun a w) t)
    rw [hcases] at hprogress
    refine ⟨hcases, hprogress, (world_withoutReport hcases).symm, ?_⟩
    rw [program_of_run_error hparse hmode hload hrun, explain_of_explained he]

/-- A world with all files where they are looked for by default, in which the only source
    survives its round trip. -/
def Trial.standard : World :=
  .fresh
    ⟨[(["build"], .dir), (["build", "solc"], .dir), (["build", "solc", "solc"], .file []),
      (["scripts"], .dir), (["scripts", "splitSources.py"], .file []), (["test"], .dir),
      (["test", "libsolidity"], .dir), (["test", "libsolidity", "ASTJSON"], .dir),
      (["test", "libsolidity", "ASTJSON", "a.sol"], .file [])]⟩
    ⟨.root, []⟩
    [.idle, { Process.idle with exitCode := 1 }, .idle,
      { Process.idle with stdout := Text.encode "{}\n" },
      { Process.idle with stdout := Text.encode "{}\n" },
      { Process.idle with fileUse := some .compare }]

/-- The program exits with 0, after a run without a failure. -/
theorem standard_world_exits_with_zero :
    (∃ s', program ["ast"] (Session.start Trial.standard (.start 0 false))
        = .ok (.afterRun 0) s')
      ∧ RunSucceeds ["ast"] Trial.standard (.start 0 false) := by
  have hzero : Step.result? (program ["ast"] (Session.start Trial.standard (.start 0 false)))
      = some (.afterRun 0) := by decide +kernel
  have hexits := program_exits ["ast"] Trial.standard (.start 0 false) fun c _ =>
    World.timely_of_instant (by decide +kernel) (by decide +kernel) c.limit
  obtain ⟨s', hend⟩ := Step.exists_eq_ok hzero
  exact ⟨⟨s', hend⟩, hexits.zero_iff.mp ⟨s', hend⟩⟩

end Harness

end RoundTrip
