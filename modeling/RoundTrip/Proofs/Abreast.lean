import RoundTrip.Proofs.Calm
import RoundTrip.Proofs.Straight

/-! # Two runs abreast

    Two runs of the same test may get different error output from their processes, and
    their probes different standard output.  `World.Abreast` says what they have in common
    all the same: everything but the consoles, what the script still holds open, and what
    the starts saw of the disk; a relation says how the disks compare.  `Concur` says that
    an action comes to the same kind of end in both, with faults that are the same but for
    the output they carry.

    **`World.Abreast.run`**: so does a command, whose standard output is the same in both
    unless its process is a probe. -/

namespace RoundTrip

open Step (EndAlike Blind)

variable {S S' T T' : Disk → Disk → Prop} {probe : Nat → Prop} {α β : Type}

/-- The call of a start: what was called where, and with which limit. -/
def Spawn.call (k : Spawn) : List String × Path × Option Number := (k.argv, k.cwd, k.limit)

/-! ## Faults and processes -/

/-- A fault without the output it carries. -/
def Fault.withoutOutput : Fault → Fault
  | .defect (.splitterFailed tool exitCode _) => .defect (.splitterFailed tool exitCode "")
  | .defect (.diffFailed command exitCode _) => .defect (.diffFailed command exitCode "")
  | e => e

/-- The faults are of the same kind and say the same, but may carry different outputs. -/
def Fault.Alike (e e' : Fault) : Prop := e'.withoutOutput = e.withoutOutput

/-- The exit code that a fault carries. -/
def Fault.exitCode? : Fault → Option Int
  | .defect e => e.exitCode?
  | _ => none

/-- The message of a fault does not quote the output that is taken out. -/
theorem Fault.message_withoutOutput (e : Fault) : e.withoutOutput.message = e.message := by
  unfold withoutOutput
  split <;> rfl

/-- Neither does the exit code that it leads to. -/
theorem Fault.exitCode_withoutOutput (e : Fault) : e.withoutOutput.exitCode? = e.exitCode? := by
  unfold withoutOutput
  split <;> rfl

/-- Faults that are alike have the same message and carry the same exit code. -/
theorem Fault.Alike.message_eq {e e' : Fault} (h : e.Alike e') :
    e'.message = e.message ∧ e'.exitCode? = e.exitCode? := by
  rw [← e'.message_withoutOutput, ← e'.exitCode_withoutOutput, h, e.message_withoutOutput,
    e.exitCode_withoutOutput]
  exact ⟨rfl, rfl⟩

/-- The same process but for its error output, and where it is `free`, for its standard
    output. -/
structure Process.Alike (free : Prop) (p p' : Process) : Prop where
  startError_eq : p'.startError = p.startError
  effects_eq : p'.effects = p.effects
  fileUse_eq : p'.fileUse = p.fileUse
  exitCode_eq : p'.exitCode = p.exitCode
  stdout_eq : ¬free → p'.stdout = p.stdout
  seconds_eq : p'.seconds = p.seconds
  kill_eq : p'.kill = p.kill

namespace Process.Alike

variable {free : Prop} {p p' : Process}

/-- Alike processes do alike with the same files. -/
theorem withContents? (h : p.Alike free p') (contents : List (Option Bytes)) :
    Option.Rel (Process.Alike free) (p.withContents? contents) (p'.withContents? contents) := by
  obtain ⟨_, _, _, _, stdout, stderr, _, _⟩ := p
  obtain ⟨startError, effects, fileUse, exitCode, stdout', stderr', seconds, kill⟩ := p'
  obtain ⟨rfl, rfl, rfl, rfl, hstdout, rfl, rfl⟩ := h
  have hexit : ∀ code, Process.Alike free
      ⟨startError, effects, fileUse, code, stdout, stderr, seconds, kill⟩
      ⟨startError, effects, fileUse, code, stdout', stderr', seconds, kill⟩ :=
    fun code => ⟨rfl, rfl, rfl, rfl, hstdout, rfl, rfl⟩
  unfold Process.withContents?
  dsimp only
  split
  · exact .some (hexit exitCode)
  · exact .some ⟨rfl, rfl, rfl, rfl, fun _ => rfl, rfl, rfl⟩
  · exact .some (hexit 2)
  · split
    · exact .some (hexit exitCode)
    · exact .some (hexit 1)
  · exact .some (hexit 2)
  · exact .none
  · exact .none
  · exact .none

/-- They are too slow for the same limits. -/
theorem timesOut_eq (h : p.Alike free p') (limit : Option Number) :
    p'.timesOut limit = p.timesOut limit := by
  cases limit with
  | none => rfl
  | some limit => exact congrArg limit.lt h.seconds_eq

/-- They are waited for as long. -/
theorem waiting_eq (h : p.Alike free p') (limit : Option Number) :
    p'.waiting limit = p.waiting limit := by
  cases limit with
  | none => exact h.seconds_eq
  | some limit =>
      unfold Process.waiting
      rw [h.seconds_eq]

theorem killedCode_eq (h : p.Alike free p') : p'.killedCode = p.killedCode := by
  unfold Process.killedCode
  rw [h.kill_eq, h.exitCode_eq]

end Process.Alike

/-! ## Worlds -/

/-- The worlds are the same but for the consoles, the disks, of which `S` says how they
    compare, and the outputs that are left open.  Which processes are probes is said by
    their numbers in the run. -/
structure World.Abreast (S : Disk → Disk → Prop) (probe : Nat → Prop) (w w' : World) : Prop where
  others : w' = { w with
    disk := w'.disk
    script := w'.script
    spawns := w'.spawns
    stdout := w'.stdout
    stderr := w'.stderr }
  disk : S w.disk w'.disk
  script : ∀ k, Process.Alike (probe (w.spawns.length + k)) (w.script.getD k .idle)
    (w'.script.getD k .idle)
  spawns : w'.spawns.map Spawn.call = w.spawns.map Spawn.call

/-- An action comes to the same kind of end in two runs. -/
def Concur (S T : Disk → Disk → Prop) (probe : Nat → Prop) (Q : α → α → Prop) :
    EStateM.Result Fault World α → EStateM.Result Fault World α → Prop :=
  EndAlike (fun a w a' w' => Q a a' ∧ w.Abreast S probe w')
    fun e w e' w' => e.Alike e' ∧ w.Abreast T probe w'

namespace World.Abreast

variable {w w' : World}

/-- One of two worlds abreast is the other with some fields replaced. -/
theorem exists_eq (h : w.Abreast S probe w') : ∃ disk script spawns stdout stderr,
    w' = { w with
      disk := disk, script := script, spawns := spawns, stdout := stdout, stderr := stderr } :=
  ⟨_, _, _, _, _, h.others⟩

/-- Less may be said of the disks. -/
theorem mono (h : w.Abreast S probe w') (hS : ∀ d d', S d d' → S' d d') : w.Abreast S' probe w' :=
  ⟨h.others, hS _ _ h.disk, h.script, h.spawns⟩

theorem cwd_eq (h : w.Abreast S probe w') : w'.cwd = w.cwd := by rw [h.others]

theorem clock_eq (h : w.Abreast S probe w') : w'.clock = w.clock := by rw [h.others]

/-- The next processes of both scripts are alike. -/
theorem headD (h : w.Abreast S probe w') :
    Process.Alike (probe w.spawns.length) (w.script.headD .idle) (w'.script.headD .idle) := by
  have hhead : ∀ script : List Process, script.headD .idle = script.getD 0 .idle := by
    rintro (_ | ⟨p, rest⟩) <;> rfl
  rw [hhead, hhead]
  exact h.script 0

/-- The consoles may be anything. -/
theorem console (h : w.Abreast S probe w') (stdout stderr stdout' stderr' : String) :
    Abreast S probe { w with stdout := stdout, stderr := stderr }
      { w' with stdout := stdout', stderr := stderr' } := by
  obtain ⟨_, _, _, _, _, rfl⟩ := h.exists_eq
  exact ⟨rfl, h.disk, h.script, h.spawns⟩

/-- The disks may be replaced by others that compare as asked. -/
theorem withDisk {d d' : Disk} (h : w.Abreast S probe w') (hd : S' d d') :
    Abreast S' probe { w with disk := d } { w' with disk := d' } := by
  obtain ⟨_, _, _, _, _, rfl⟩ := h.exists_eq
  exact ⟨rfl, hd, h.script, h.spawns⟩

theorem countUp (h : w.Abreast S probe w') :
    Abreast S probe { w with workspaceCount := w.workspaceCount + 1 }
      { w' with workspaceCount := w'.workspaceCount + 1 } := by
  obtain ⟨_, _, _, _, _, rfl⟩ := h.exists_eq
  exact ⟨rfl, h.disk, h.script, h.spawns⟩

/-- What is printed does not matter. -/
theorem prints {x x' : Action World Unit} (h : w.Abreast S probe w') (hx : Prints x)
    (hx' : Prints x') : Concur S T probe Eq (x w) (x' w') := by
  obtain ⟨_, stdout, stderr, heq⟩ := hx w
  obtain ⟨_, stdout', stderr', heq'⟩ := hx' w'
  rw [heq, heq']
  exact .ok ⟨rfl, h.console _ _ _ _⟩

end World.Abreast

namespace Concur

variable {Q Q' : α → α → Prop} {w w' : World}

/-- The disks may be said to compare less closely after a fault. -/
theorem weaken {r r' : EStateM.Result Fault World α} (h : Concur S T probe Q r r')
    (hT : ∀ d d', T d d' → T' d d') : Concur S T' probe Q r r' :=
  EndAlike.mono h (fun _ _ _ _ ha => ha) fun _ _ _ _ he => ⟨he.1, he.2.mono hT⟩

/-- What both have found on equal terms is delivered by both, or is the fault of both. -/
theorem ofExcept {δ : Type} {error : δ → Fault} {r : Except δ α} (hw : w.Abreast S probe w') :
    Concur S S probe Eq (Step.ofExcept error r w) (Step.ofExcept error r w') :=
  EndAlike.ofExcept (fun _ _ => ⟨rfl, hw⟩) fun _ _ => ⟨rfl, hw⟩

/-- Two steps concur if the first ones do and, from where those end, the second ones. -/
theorem bind {R : β → β → Prop} {x x' : Action World β} {f f' : β → Action World α}
    (hx : Concur S' T probe R (x w) (x' w'))
    (hf : ∀ b t b' t', x w = .ok b t → R b b' → t.Abreast S' probe t' →
      Concur S T probe Q (f b t) (f' b' t')) :
    Concur S T probe Q ((x >>= f) w) ((x' >>= f') w') :=
  EndAlike.bind hx fun b t b' t' heq hb => hf b t b' t' heq hb.1 hb.2

end Concur

/-! ## Commands -/

/-- Two calls of the same process, which may forward its output differently. -/
structure Command.Alike (c c' : Command) : Prop where
  argv_eq : c'.argv = c.argv
  cwd_eq : c'.cwd = c.cwd
  limit_eq : c'.limit = c.limit

namespace Command.Alike

variable {c c' : Command}

theorem program_eq (h : c.Alike c') : c'.program = c.program := by
  unfold Command.program
  rw [h.argv_eq]

theorem startFault_eq (h : c.Alike c') (reason : String) :
    c'.startFault reason = c.startFault reason := by
  unfold Command.startFault
  rw [h.program_eq]

/-- Commands that are alike look at the same files. -/
theorem contents_eq (h : c.Alike c') (d : Disk) (cwd : Path) :
    c'.contents d cwd = c.contents d cwd := by
  unfold Command.contents
  rw [h.argv_eq, h.cwd_eq]

end Command.Alike

/-- After the effects of the next process, the files that the words of the command name are
    the same on two disks, as far as a process makes something of them. -/
def Command.LooksAlike (c : Command) (S : Disk → Disk → Prop) (w : World) : Prop :=
  ∀ d d', Effect.applyAll (w.cwd / c.cwd) (w.script.headD .idle).effects w.disk = .ok () d →
    S d d' → ∀ p : Process,
      p.withContents? (c.contents d' w.cwd) = p.withContents? (c.contents d w.cwd)

/-- Two reports that are the same but for the error output, and for the standard output
    unless that is `kept`. -/
structure Invocation.Matches (kept : Prop) (i i' : Invocation) : Prop where
  argv_eq : i'.argv = i.argv
  exitCode_eq : i'.exitCode = i.exitCode
  stdout_eq : kept → i'.stdout = i.stdout
  timedOut_eq : i'.timedOut = i.timedOut
  milliseconds_eq : i'.milliseconds = i.milliseconds

namespace World.Abreast

variable {w w' : World} {c c' : Command} {free : Prop} {p p' : Process}

/-- Both starts are entered under the same number, so the same outputs are left open after
    them. -/
theorem enter {d d' : Disk} (h : w.Abreast S probe w') (hc : c.Alike c') (hd : S d d')
    {limit limit' : Option Number} (hlimit : limit' = limit) (killed killed' : Option Kill) :
    Abreast S probe (c.enter w d limit killed) (c'.enter w' d' limit' killed') := by
  subst hlimit
  obtain ⟨_, _, _, _, _, rfl⟩ := h.exists_eq
  refine ⟨rfl, hd, fun k => ?_, ?_⟩
  -- the scripts are compared number by number, and one number is used up
  · have htail : ∀ script : List Process, script.tail.getD k .idle = script.getD (k + 1) .idle := by
      rintro (_ | ⟨p, rest⟩) <;> rfl
    have hnext := h.script (k + 1)
    show Process.Alike (probe ((w.spawns ++ [c.spawn w limit' killed]).length + k))
      (w.script.tail.getD k .idle) (List.getD (List.tail _) k .idle)
    rw [htail, htail, List.length_append, Nat.add_assoc, Nat.add_comm [_].length k]
    exact hnext
  · show List.map Spawn.call (_ ++ [_]) = List.map Spawn.call (w.spawns ++ [_])
    rw [List.map_append, List.map_append, h.spawns]
    show _ ++ [(c'.argv, c'.cwd, limit')] = _ ++ [(c.argv, c.cwd, limit')]
    rw [hc.argv_eq, hc.cwd_eq]

/-- Alike processes are started alike: what they do to the disks is of the same kind, and what
    they find there is the same. -/
theorem start (h : w.Abreast S probe w') (hc : c.Alike c')
    (hS : ∀ cwd es, Blind S (Effect.applyAll cwd es)) (hlook : c.LooksAlike S w) :
    Concur S S probe (Process.Alike (probe w.spawns.length)) (c.start w) (c'.start w') := by
  have hhead := h.headD
  have hblind := hS (w.cwd / c.cwd) (w.script.headD .idle).effects w.disk w'.disk h.disk
  unfold Command.start
  rw [Step.bind_ok (Step.get_apply w), Step.bind_ok (Step.get_apply w'), hhead.startError_eq,
    hhead.effects_eq, h.cwd_eq, hc.cwd_eq]
  cases (w.script.headD .idle).startError with
  | some reason =>
      refine .error ⟨?_, h.enter hc h.disk rfl none none⟩
      rw [hc.startFault_eq]
      rfl
  | none =>
      dsimp only
      generalize hr : Effect.applyAll (w.cwd / c.cwd) (w.script.headD .idle).effects w.disk = r
        at hblind
      generalize Effect.applyAll (w.cwd / c.cwd) (w.script.headD .idle).effects w'.disk = r'
        at hblind
      cases hblind with
      | @error _ e d d' he =>
          obtain ⟨rfl, hd⟩ := he
          cases e with
          | os e =>
              refine .error ⟨?_, h.enter hc hd rfl none none⟩
              rw [hc.startFault_eq]
              rfl
          | nul => exact .error ⟨rfl, h.enter hc hd rfl none none⟩
          | linkLoop p => exact .error ⟨rfl, h.enter hc hd rfl none none⟩
      | @ok _ _ d d' hok =>
          have hd := hok.2
          dsimp only
          rw [hc.contents_eq]
          -- what the processes do with their files depends on the contents, which are the same
          have hplay := hhead.withContents? (c.contents d' w.cwd)
          rw [hlook d d' hr hd] at hplay
          generalize (w.script.headD .idle).withContents? (c.contents d w.cwd) = q at hplay
          generalize (w'.script.headD .idle).withContents? (c.contents d' w.cwd) = q' at hplay
          cases hplay with
          | none => exact .error ⟨rfl, h.enter hc hd rfl none none⟩
          | @some p p' hp =>
              refine .ok ⟨hp, ?_⟩
              exact (h.enter hc hd hc.limit_eq _ _).console _ _ _ _

/-- Both clocks go on, or neither can. -/
theorem pass (h : w.Abreast S probe w') (seconds : Number) :
    Concur S S probe Eq (Command.pass seconds w) (Command.pass seconds w') := by
  unfold Command.pass
  cases seconds.toFloat? with
  | some x =>
      obtain ⟨_, _, _, _, _, rfl⟩ := h.exists_eq
      exact .ok ⟨rfl, rfl, h.disk, h.script, h.spawns⟩
  | none => exact .error ⟨rfl, h⟩

/-- A time-out is logged by both or by neither. -/
theorem logTimeout (h : w.Abreast S probe w') (hc : c.Alike c') (hp : p.Alike free p') :
    Concur S S probe Eq (c.logTimeout p w) (c'.logTimeout p' w') := by
  unfold Command.logTimeout
  rw [hc.limit_eq, hp.timesOut_eq, hc.program_eq]
  cases c.limit with
  | none => exact .ok ⟨rfl, h⟩
  | some limit =>
      cases p.timesOut (some limit) with
      | false => exact .ok ⟨rfl, h⟩
      | true =>
          refine Concur.bind (Concur.ofExcept h) fun _ _ _ _ _ _ hnext => ?_
          exact hnext.prints (prints_log _ _) (prints_log _ _)

/-- The results match but for the streams, of which the output is the same where it is not left
    open. -/
theorem finish {kept : Prop} (h : w.Abreast S probe w') (hc : c.Alike c') (hp : p.Alike free p')
    (hkept : kept → ¬free ∧ c'.forwardsStdout = c.forwardsStdout) (began : Float) :
    Concur S S probe (Invocation.Matches kept) (c.finish p began w) (c'.finish p' began w') := by
  unfold Command.finish
  rw [Step.bind_ok (Step.get_apply w), Step.bind_ok (Step.get_apply w'), h.clock_eq]
  refine Concur.bind (Concur.ofExcept h) fun duration _ _ _ _ heq hnext => ?_
  subst heq
  refine .ok ⟨⟨hc.argv_eq, ?_, fun hk => ?_, ?_, rfl⟩, hnext⟩
  · show (if p'.timesOut c'.limit then p'.killedCode else p'.exitCode)
      = if p.timesOut c.limit then p.killedCode else p.exitCode
    rw [hc.limit_eq, hp.timesOut_eq, hp.killedCode_eq, hp.exitCode_eq]
  · show (if c'.forwardsStdout then [] else p'.stdout) = if c.forwardsStdout then [] else p.stdout
    rw [(hkept hk).2, hp.stdout_eq (hkept hk).1]
  · show p'.timesOut c'.limit = p.timesOut c.limit
    rw [hc.limit_eq, hp.timesOut_eq]

/-- **A command comes to the same kind of end**, if its process does the same to the disks
    and finds the same in the files it looks at. -/
theorem run {kept : Prop} (h : w.Abreast S probe w') (hc : c.Alike c')
    (hS : ∀ cwd es, Blind S (Effect.applyAll cwd es)) (hlook : c.LooksAlike S w)
    (hkept : kept → ¬probe w.spawns.length ∧ c'.forwardsStdout = c.forwardsStdout) :
    Concur S S probe (Invocation.Matches kept) (c.run w) (c'.run w') := by
  rw [Command.run_eq, Command.run_eq, hc.argv_eq, hc.cwd_eq]
  obtain ⟨stderr, hlog⟩ := World.log_apply .command
    ("run: " ++ String.intercalate " " c.argv ++ " (cwd=" ++ c.cwd.text ++ ")") w
  obtain ⟨stderr', hlog'⟩ := World.log_apply .command
    ("run: " ++ String.intercalate " " c.argv ++ " (cwd=" ++ c.cwd.text ++ ")") w'
  have hlogged := h.console w.stdout stderr w'.stdout stderr'
  rw [Step.bind_ok hlog, Step.bind_ok hlog', Step.bind_ok (Step.get_apply _),
    Step.bind_ok (Step.get_apply _)]
  refine Concur.bind (hlogged.start hc hS hlook) fun p w₁ p' w₁' _ hp h₁ => ?_
  rw [hc.limit_eq, hp.waiting_eq]
  refine Concur.bind (h₁.pass _) fun _ w₂ _ w₂' _ _ h₂ => ?_
  refine Concur.bind (h₂.logTimeout hc hp) fun _ w₃ _ w₃' _ _ h₃ => ?_
  show Concur S S probe _ (c.finish p w.clock w₃) (c'.finish p' w'.clock w₃')
  rw [h.clock_eq]
  exact h₃.finish hc hp hkept _

end World.Abreast

/-- On the same disk a process finds the same. -/
theorem World.Abreast.run_eq {kept : Prop} {w w' : World} {c c' : Command}
    (h : w.Abreast Eq probe w') (hc : c.Alike c')
    (hkept : kept → ¬probe w.spawns.length ∧ c'.forwardsStdout = c.forwardsStdout) :
    Concur Eq Eq probe (Invocation.Matches kept) (c.run w) (c'.run w') := by
  refine h.run hc (fun _ _ => Step.blind_eq _) (fun d d' _ hd p => ?_) hkept
  subst hd
  rfl

end RoundTrip
