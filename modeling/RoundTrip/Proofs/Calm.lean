import RoundTrip.Proofs.Clock
import RoundTrip.Proofs.Faults

/-! # Processes that leave the disk alone

    A calm process starts, and changes nothing on the disk.  A command that plays one is
    known down to the last field of the world after it: **`Command.run_calm`**.  It comes to
    its end as soon as the clock can tell how long that takes, which it always can while its
    readings are moderate (`Clock.Steady.timed`). -/

namespace RoundTrip

/-! ## What a process reads -/

namespace Process

variable {p : Process} {contents contents' : List (Option Bytes)}

/-- A process that starts and leaves the disk as it is. -/
structure Calm (p : Process) : Prop where
  starts : p.startError = none
  effects_eq : p.effects = []

instance : DecidablePred Calm := fun p =>
  decidable_of_iff (p.startError = none ∧ p.effects = [])
    ⟨fun h => ⟨h.1, h.2⟩, fun h => ⟨h.starts, h.effects_eq⟩⟩

/-- How many of its last words a process takes for names of files. -/
def looksAt (p : Process) : Nat :=
  match p.fileUse with
  | none => 0
  | some .print => 1
  | some .compare => 2

/-- The words that a process takes for names of files, the last one first. -/
def lookups (p : Process) (argv : List String) : List String := argv.reverse.take p.looksAt

/-- What a process prints depends on the files that it looks at, and on no other. -/
theorem withContents?_congr (hlength : 2 ≤ contents.length) (hlength' : 2 ≤ contents'.length)
    (h : contents.reverse.take p.looksAt = contents'.reverse.take p.looksAt) :
    p.withContents? contents = p.withContents? contents' := by
  rw [← List.length_reverse] at hlength hlength'
  obtain ⟨a, rest, ha⟩ :=
    List.exists_cons_of_length_pos (Nat.lt_of_lt_of_le Nat.zero_lt_two hlength)
  obtain ⟨a', rest', ha'⟩ :=
    List.exists_cons_of_length_pos (Nat.lt_of_lt_of_le Nat.zero_lt_two hlength')
  rw [ha] at hlength
  rw [ha'] at hlength'
  obtain ⟨b, rest, rfl⟩ := List.exists_cons_of_length_pos (Nat.le_of_succ_le_succ hlength)
  obtain ⟨b', rest', rfl⟩ := List.exists_cons_of_length_pos (Nat.le_of_succ_le_succ hlength')
  rw [ha, ha'] at h
  unfold withContents? looksAt at *
  rw [ha, ha']
  -- of its files a process uses none, one, or the last two
  cases huse : p.fileUse with
  | none => rfl
  | some use =>
      rw [huse] at h
      cases use with
      | print =>
          obtain rfl : a = a' := by simpa using h
          cases a <;> rfl
      | compare =>
          obtain ⟨rfl, rfl⟩ : a = a' ∧ b = b' := by simpa using h
          cases a <;> cases b <;> rfl

end Process

/-! ## What a command comes to -/

namespace Command

variable {c : Command} {w w' : World}

/-- A calm process is started. -/
theorem start_calm {p : Process} (hcalm : (w.script.headD .idle).Calm)
    (hp : (w.script.headD .idle).withContents? (c.contents w.disk w.cwd) = some p) :
    ∃ stderr, c.start w
      = .ok p { c.enter w w.disk c.limit (p.killed? c.limit) with stderr := stderr } := by
  unfold start
  rw [Step.bind_ok (Step.get_apply w)]
  simp only [hcalm.starts, hcalm.effects_eq]
  rw [show Effect.applyAll (w.cwd / c.cwd) [] w.disk = .ok () w.disk from rfl]
  simp only [hp]
  exact ⟨_, rfl⟩

theorem logTimeout_eq_ok {program : String} {args : List String} (hargv : c.argv = program :: args)
    (p : Process) (w : World) :
    ∃ stderr, c.logTimeout p w = .ok () { w with stderr := stderr } := by
  have hprogram : c.program = .ok program := by
    unfold Command.program
    rw [hargv]
  unfold logTimeout
  rw [hprogram]
  cases c.limit with
  | none => exact ⟨w.stderr, rfl⟩
  | some limit =>
      cases p.timesOut (some limit) with
      | false => exact ⟨w.stderr, rfl⟩
      | true => exact World.log_apply _ _ w

/-- The start of a process has nothing to do with what was printed before. -/
theorem start_of_stderr {p : Process} (h : c.start w = .ok p w') (stderr : String) :
    ∃ stderr', c.start { w with stderr := stderr } = .ok p { w' with stderr := stderr' } := by
  unfold start at h ⊢
  rw [Step.bind_ok (Step.get_apply _)] at h ⊢
  cases hs : (w.script.headD .idle).startError with
  | some reason =>
      simp only [hs] at h
      cases h
  | none =>
      cases he : Effect.applyAll (w.cwd / c.cwd) (w.script.headD .idle).effects w.disk with
      | error e d =>
          simp only [hs, he] at h
          cases e <;> cases h
      | ok u d =>
          cases hp : (w.script.headD .idle).withContents? (c.contents d w.cwd) with
          | none =>
              simp only [hs, he, hp] at h
              cases h
          | some q =>
              simp only [hs, he, hp] at h ⊢
              cases h
              exact ⟨_, rfl⟩

/-- **A process that was started is reported on**, if the clock can tell how long it takes. -/
theorem run_of_start {p : Process} (hargv : 2 ≤ c.argv.length) (hstart : c.start w = .ok p w')
    (htimed : p.Timed c.limit w.clock) :
    ∃ x n stderr, (p.waiting c.limit).toFloat? = some x
      ∧ c.run w = .ok (c.report p n) { w' with clock := w.clock + x, stderr := stderr } := by
  obtain ⟨program, args, hprogram⟩ :=
    List.exists_cons_of_length_pos (Nat.lt_of_lt_of_le Nat.zero_lt_two hargv)
  obtain ⟨x, hx, n, hn⟩ := htimed
  -- to start a process takes no time
  have hclock : w'.clock = w.clock := by
    obtain ⟨e, disk, -, h⟩ | ⟨q, contents, disk, stderr, -, -, h⟩ := start_cases c w
    · rw [h] at hstart
      cases hstart
    · rw [h] at hstart
      cases hstart
      rfl
  obtain ⟨stderr, hlog⟩ := World.log_apply .command
    ("run: " ++ String.intercalate " " c.argv ++ " (cwd=" ++ c.cwd.text ++ ")") w
  obtain ⟨stderr', hstart⟩ := start_of_stderr hstart stderr
  have hpass : pass (p.waiting c.limit) { w' with stderr := stderr' }
      = .ok () { w' with clock := w.clock + x, stderr := stderr' } := by
    unfold pass
    rw [hx, ← hclock]
    rfl
  obtain ⟨stderr'', hlog'⟩ := logTimeout_eq_ok hprogram p
    { w' with clock := w.clock + x, stderr := stderr' }
  refine ⟨x, n, stderr'', hx, ?_⟩
  rw [run_eq, Step.bind_ok hlog, Step.bind_ok (Step.get_apply _), Step.bind_ok hstart,
    Step.bind_ok hpass, Step.bind_ok hlog']
  unfold finish
  rw [Step.bind_ok (Step.get_apply _)]
  show (Step.ofExcept id (milliseconds (w.clock + x - w.clock)) >>= fun duration =>
    (pure (c.report p duration) : Action World Invocation)) _ = _
  rw [hn]
  rfl

/-- From one world to the other a calm process was played, which took so many seconds. -/
structure Played (w : World) (seconds : Float) (w' : World) : Prop where
  disk_eq : w'.disk = w.disk
  cwd_eq : w'.cwd = w.cwd
  tempDir_eq : w'.tempDir = w.tempDir
  count_eq : w'.workspaceCount = w.workspaceCount
  script_eq : w'.script = w.script.tail
  clock_eq : w'.clock = w.clock + seconds
  spawned : w'.spawns.length = w.spawns.length + 1

/-- **What a command with a calm process comes to**, if the clock can tell how long that
    takes. -/
theorem run_calm (hargv : 2 ≤ c.argv.length) (hcalm : (w.script.headD .idle).Calm)
    (htimed : (w.script.headD .idle).Timed c.limit w.clock) :
    ∃ p x n w', (w.script.headD .idle).withContents? (c.contents w.disk w.cwd) = some p
      ∧ ((w.script.headD .idle).waiting c.limit).toFloat? = some x
      ∧ c.run w = .ok (c.report p n) w' ∧ Played w x w' := by
  have hlength : 2 ≤ (c.contents w.disk w.cwd).length := by rwa [contents, List.length_map]
  obtain ⟨p, hp⟩ := Option.isSome_iff_exists.mp
    ((w.script.headD .idle).withContents_isSome hlength)
  have hwaiting : p.waiting c.limit = (w.script.headD .idle).waiting c.limit :=
    Process.waiting_congr (Process.seconds_withContents hp)
  obtain ⟨stderr, hstart⟩ := start_calm (c := c) hcalm hp
  obtain ⟨x, n, stderr', hx, hrun⟩ := run_of_start hargv hstart
    (by unfold Process.Timed; rw [hwaiting]; exact htimed)
  rw [hwaiting] at hx
  exact ⟨p, x, n, _, hp, hx, hrun, rfl, rfl, rfl, rfl, rfl, rfl, List.length_append⟩

/-- A command that came to an end was timed. -/
theorem timed_of_run {i : Invocation} (hargv : 2 ≤ c.argv.length) (h : c.run w = .ok i w') :
    (w.script.headD .idle).Timed c.limit w.clock := by
  rw [run_eq] at h
  obtain ⟨stderr, hlog⟩ := World.log_apply .command
    ("run: " ++ String.intercalate " " c.argv ++ " (cwd=" ++ c.cwd.text ++ ")") w
  rw [Step.bind_ok hlog, Step.bind_ok (Step.get_apply _)] at h
  obtain ⟨p, w₁, hstart, h⟩ := Step.bind_eq_ok_iff.mp h
  obtain ⟨hclock, hscript, hseconds⟩ :=
    (meets_start hargv w.clock w.script).of_eq_ok (s := { w with stderr := stderr }) ⟨rfl, rfl⟩
      hstart
  obtain ⟨_, w₂, hpass, h⟩ := Step.bind_eq_ok_iff.mp h
  rw [Process.waiting_congr hseconds] at hpass
  have hwaited := (meets_pass c.limit w).of_eq_ok ⟨hclock, hscript⟩ hpass
  obtain ⟨_, w₃, hlog', h⟩ := Step.bind_eq_ok_iff.mp h
  obtain ⟨x, hx, hclock₃⟩ :=
    ((meets_logTimeout hargv p (E := fun _ => True)).of_eq_ok hwaited hlog').clock
  unfold finish at h
  rw [Step.bind_ok (Step.get_apply _)] at h
  obtain ⟨n, _, hn, -⟩ := Step.bind_eq_ok_iff.mp h
  refine ⟨x, hx, n, ?_⟩
  have hms := (Step.of_ofExcept_eq_ok hn).1
  rwa [show ({ w with stderr := stderr } : World).clock = w.clock from rfl, hclock₃] at hms

end Command

/-- Reports that say the same, apart from the words of the command and from the time. -/
structure Invocation.Alike (i i' : Invocation) : Prop where
  exitCode_eq : i'.exitCode = i.exitCode
  stdout_eq : i'.stdout = i.stdout
  stderr_eq : i'.stderr = i.stderr
  timedOut_eq : i'.timedOut = i.timedOut

/-- Commands that differ in their words and their directory report alike on one process. -/
theorem Command.report_alike {c c' : Command} (hlimit : c'.limit = c.limit)
    (hstdout : c'.forwardsStdout = c.forwardsStdout)
    (hstderr : c'.forwardsStderr = c.forwardsStderr) (p : Process) (n n' : Int) :
    (c.report p n).Alike (c'.report p n') := by
  unfold report
  rw [hlimit, hstdout, hstderr]
  exact ⟨rfl, rfl, rfl, rfl⟩

/-! ## A steady clock -/

/-- The readings of a clock are moderate while it is waited for so long, time after time. -/
def Clock.Steady (clock : Float) : List Number → Prop
  | [] => Moderate clock
  | wait :: rest => Moderate clock ∧ ∀ x, wait.toFloat? = some x → Steady (clock + x) rest

theorem Clock.Steady.moderate {clock : Float} {waits : List Number} (h : Steady clock waits) :
    Moderate clock := by
  cases waits with
  | nil => exact h
  | cons wait rest => exact h.1

/-- A process that has been timed by one clock is timed by every steady one. -/
theorem Clock.Steady.timed {clock before : Float} {p : Process} {limit : Option Number}
    {rest : List Number} (h : Steady clock (p.waiting limit :: rest))
    (hp : p.Timed limit before) : p.Timed limit clock := by
  obtain ⟨x, hx, -⟩ := hp
  exact ⟨x, hx, milliseconds_isOk h.moderate (h.2 x hx).moderate⟩

/-- A clock at zero is steady while nothing takes any time. -/
theorem Clock.steady_of_instant {waits : List Number} (h : ∀ wait ∈ waits, wait = .int 0) :
    Steady 0 waits := by
  have hzero : Moderate 0 := ⟨by decide +kernel, by decide +kernel⟩
  induction waits with
  | nil => exact hzero
  | cons wait rest ih =>
      obtain rfl := h wait List.mem_cons_self
      refine ⟨hzero, fun x hx => ?_⟩
      have hx' : Number.toFloat? (.int 0) = some 0 := by decide +kernel
      rw [hx'] at hx
      cases hx
      have hsum : (0 + 0 : Float) = 0 := by decide +kernel
      rw [hsum]
      exact ih fun wait hwait => h wait (List.mem_cons_of_mem _ hwait)

end RoundTrip
