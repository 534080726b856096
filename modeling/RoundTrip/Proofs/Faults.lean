import RoundTrip.Proofs.Walk

/-! # What can go wrong in a round trip

    The disk refuses an operation with a cause, or because a path holds the character
    that no name can hold.  A command ends in a fault if its process cannot be started or
    is to change such a path, or if the clock cannot tell how long it takes, and in no
    other: **`Command.meets_run`**.

    `Bears` gathers what is said of single actions, and the round trip follows.  A refused
    write is a defect, and so is a process that could not be started and a comparison that
    came to no result.  So a round trip ends in a defect if it ends in a fault at all,
    except for what its processes do: **`fails_roundTrip`** -/

namespace RoundTrip

open Step (Fails Meets)

/-! ## The disk -/

namespace Disk

variable {E : PathError → Prop} {cwd p : Path}

/-- A name is refused for its zero octet, and for nothing else. -/
theorem checkNul_eq_error {e : PathError} (h : checkNul p = .error e) :
    p.holdsNul = true ∧ e = .nul := by
  unfold checkNul at h
  split at h
  · rename_i hnul
    cases h
    exact ⟨hnul, rfl⟩
  · cases h

/-- Whether a path is a directory is refused by the system only. -/
theorem isDir_eq_error {d : Disk} {e : PathError} (h : d.isDir cwd p = .error e) :
    ∃ o, e = .os o := by
  unfold isDir node? at h
  split at h
  · cases h
  · split at h
    · cases h
    · split at h
      · cases h
      · cases h
        exact ⟨_, rfl⟩

/-- A directory that cannot be made may be there already; only the system refuses it, or what
    is to be done about a missing one. -/
theorem fails_enterDir {onMissing : Edit Unit} (hos : ∀ o, E (.os o)) (hon : Fails E onMissing) :
    Fails E (enterDir cwd p onMissing) := by
  intro d e d' h
  unfold enterDir at h
  split at h
  · cases h
  · exact hon _ _ _ h
  · split at h
    · cases h
    · cases h
      exact hos _
    · rename_i hdir
      cases h
      obtain ⟨o, rfl⟩ := isDir_eq_error hdir
      exact hos o

/-- The directories of a way, by induction on its names from the last one back. -/
theorem fails_makeDirsFrom (hos : ∀ o, E (.os o)) (anchor : Anchor) (names : List String) :
    Fails E (makeDirsFrom cwd anchor names) := by
  induction names with
  | nil => exact fails_enterDir hos (Step.fails_throw (hos _))
  | cons n up ih =>
      rw [makeDirsFrom]
      exact fails_enterDir hos (Step.fails_bind ih fun _ =>
        fails_enterDir hos (Step.fails_throw (hos _)))

/-- The same of a path, which may hold a zero octet. -/
theorem fails_makeDirs (hos : ∀ o, E (.os o)) (hnul : p.holdsNul = true → E .nul) :
    Fails E (makeDirs cwd p) := by
  refine Step.fails_bind (Step.fails_ofExcept fun e he => ?_) fun _ =>
    fails_makeDirsFrom hos p.anchor _
  obtain ⟨hp, rfl⟩ := checkNul_eq_error he
  exact hnul hp

/-- An operation that checks its path first and names a refusal by it. -/
theorem of_refuse_eq_error {α : Type} {r : Except Errno α} {e : PathError} (hos : ∀ o, E (.os o))
    (hnul : p.holdsNul = true → E .nul)
    (h : (do checkNul p; refuse p r : Except PathError α) = .error e) : E e := by
  cases hc : checkNul p with
  | error e' =>
      rw [hc] at h
      cases h
      obtain ⟨hp, rfl⟩ := checkNul_eq_error hc
      exact hnul hp
  | ok _ =>
      rw [hc] at h
      cases r with
      | ok a => cases h
      | error cause =>
          cases h
          exact hos _

/-- The way to a path is a part of it. -/
theorem holdsNul_parent (h : p.parent.holdsNul = true) : p.holdsNul = true := by
  obtain ⟨n, hn, hnul⟩ := List.any_eq_true.mp h
  exact List.any_eq_true.mpr ⟨n, List.dropLast_subset _ hn, hnul⟩

/-- A file is refused for its name or by the system. -/
theorem fails_writeWithParents {content : Bytes} (hos : ∀ o, E (.os o))
    (hnul : p.holdsNul = true → E .nul) : Fails E (writeWithParents cwd p content) := by
  refine Step.fails_bind (fails_makeDirs hos fun h => hnul (holdsNul_parent h)) fun _ => ?_
  exact Step.fails_attempt fun d e h => of_refuse_eq_error hos hnul h

end Disk

/-- A path error is a refusal with a cause, or the path holds what no name can hold. -/
inductive PathError.IsPlain : PathError → Prop where
  | os (o : OsError) : IsPlain (.os o)
  | nul : IsPlain .nul

/-- So is a link; no chain of links is followed to make one. -/
theorem Disk.fails_makeLink {cwd p : Path} {target : String} :
    Fails PathError.IsPlain (Step.attempt id (Disk.makeLink · cwd p target) : Disk.Edit Unit) := by
  refine Step.fails_attempt fun d e h => ?_
  unfold Disk.makeLink at h
  cases hc : checkNul p with
  | error e' =>
      rw [hc] at h
      cases h
      obtain ⟨-, rfl⟩ := checkNul_eq_error hc
      exact .nul
  | ok _ =>
      simp only [hc, bind, Except.bind] at h
      split at h
      · cases h
        exact .nul
      · split at h
        · cases h
        · cases h
          exact .os _

/-- To discard a tree fails for its name only. -/
theorem Disk.fails_discard {cwd p : Path} :
    Fails PathError.IsPlain (Step.attempt id (Disk.discard · cwd p) : Disk.Edit Unit) := by
  refine Step.fails_attempt fun d e h => ?_
  unfold Disk.discard at h
  cases hc : checkNul p with
  | error e' =>
      rw [hc] at h
      cases h
      obtain ⟨-, rfl⟩ := checkNul_eq_error hc
      exact .nul
  | ok _ =>
      simp only [hc, bind, Except.bind] at h
      split at h
      · cases h
      · cases h

/-- A process is told of plain errors of the disk only. -/
theorem Effect.fails_apply (cwd : Path) (e : Effect) : Fails PathError.IsPlain (e.apply cwd) := by
  cases e with
  | write p content =>
      exact Disk.fails_writeWithParents PathError.IsPlain.os fun _ => .nul
  | makeDir p => exact Disk.fails_makeDirs PathError.IsPlain.os fun _ => .nul
  | link p target =>
      exact Step.fails_bind (Disk.fails_makeDirs PathError.IsPlain.os fun _ => .nul)
        fun _ => Disk.fails_makeLink
  | remove p => exact Disk.fails_discard

theorem Effect.fails_applyAll (cwd : Path) (es : List Effect) :
    Fails PathError.IsPlain (Effect.applyAll cwd es) := by
  induction es with
  | nil => exact Step.fails_pure ()
  | cons e es ih => exact Step.fails_bind (e.fails_apply cwd) fun _ => ih

/-! ## Commands -/

/-- The faults of a command: its process could not be started, or was to change a path
    that no name can match; and where the clock cannot tell how long it takes, that. -/
inductive Fault.OfCommand (untimed : Prop) : Fault → Prop where
  | notStarted (program reason : String) : OfCommand untimed (.defect (.notStarted program reason))
  | nul : OfCommand untimed (.path .nul)
  | clock (h : untimed) (e : ClockError) : OfCommand untimed (.clock e)

theorem Fault.OfCommand.mono {a b : Prop} (h : a → b) {e : Fault} (he : OfCommand a e) :
    OfCommand b e := by
  cases he with
  | notStarted program reason => exact .notStarted program reason
  | nul => exact .nul
  | clock ha e => exact .clock (h ha) e

/-- A fault of the harness, or one that a process brings about by the time it takes or
    by a path that no name can match. -/
inductive Fault.IsAnswered : Fault → Prop where
  | defect (d : Defect) : IsAnswered (.defect d)
  | clock (e : ClockError) : IsAnswered (.clock e)
  | nul : IsAnswered (.path .nul)

/-- Every fault of a command has an answer. -/
theorem Fault.OfCommand.isAnswered {untimed : Prop} {e : Fault} (h : OfCommand untimed e) :
    e.IsAnswered := by
  cases h with
  | notStarted program reason => exact .defect _
  | nul => exact .nul
  | clock _ e => exact .clock e

namespace Process

variable {p q : Process} {contents : List (Option Bytes)} {limit : Option Number}

/-- A process that works on files has enough words. -/
theorem withContents_isSome (p : Process) {cs : List (Option Bytes)} (h : 2 ≤ cs.length) :
    (p.withContents? cs).isSome := by
  have hlength : 2 ≤ cs.reverse.length := by rwa [List.length_reverse]
  obtain ⟨a, rest, ha⟩ :=
    List.exists_cons_of_length_pos (Nat.lt_of_lt_of_le Nat.zero_lt_two hlength)
  rw [ha, List.length_cons] at hlength
  obtain ⟨b, rest, rfl⟩ := List.exists_cons_of_length_pos (Nat.le_of_succ_le_succ hlength)
  unfold Process.withContents?
  rw [ha]
  cases p.fileUse with
  | none => rfl
  | some use =>
      cases use with
      | print => cases a <;> rfl
      | compare => cases a <;> cases b <;> rfl

/-- To work on files takes no time of its own. -/
theorem seconds_withContents (h : p.withContents? contents = some q) : q.seconds = p.seconds := by
  unfold withContents? at h
  split at h
  · cases h
    rfl
  · cases h
    rfl
  · cases h
    rfl
  · rename_i a b rest _ _
    -- two documents are compared: the exit code tells whether they are the same
    by_cases hab : b = a
    · rw [if_pos hab] at h
      cases h
      rfl
    · rw [if_neg hab] at h
      cases h
      rfl
  · cases h
    rfl
  · cases h
  · cases h
  · cases h

/-- How long a process is waited for depends on its time and on the limit. -/
theorem waiting_congr (h : q.seconds = p.seconds) : q.waiting limit = p.waiting limit := by
  unfold waiting
  rw [h]

/-- How long the process is waited for is a finite number of milliseconds, from a reading of
    the clock on.  This is a little narrower than a finite number of seconds: the duration is
    taken a thousand times before it is cut to an integer, so one of `1.8e305` seconds or more
    is finite and still has no number of milliseconds. -/
def Timed (limit : Option Number) (clock : Float) (p : Process) : Prop :=
  ∃ x, (p.waiting limit).toFloat? = some x ∧ ∃ n, Command.milliseconds (clock + x - clock) = .ok n

end Process

namespace Command

variable {c : Command}

/-- With a program among its words a command that does not start is a defect of the harness. -/
theorem startFault_of_argv (h : 2 ≤ c.argv.length) (reason : String) :
    (c.startFault reason).OfCommand False := by
  obtain ⟨program, args, hargv⟩ :=
    List.exists_cons_of_length_pos (Nat.lt_of_lt_of_le Nat.zero_lt_two h)
  unfold startFault Command.program
  rw [hargv]
  exact .notStarted _ _

/-- A process is started without delay, as the next entry of the script has it. -/
theorem meets_start (h : 2 ≤ c.argv.length) (clock : Float) (script : List Process) :
    Meets (fun w => w.clock = clock ∧ w.script = script)
      (fun p w => w.clock = clock ∧ w.script = script.tail
        ∧ p.seconds = (script.headD .idle).seconds)
      (Fault.OfCommand False) c.start := by
  rintro w ⟨rfl, rfl⟩
  unfold start
  rw [Step.bind_ok (Step.get_apply w)]
  cases (w.script.headD .idle).startError with
  | some reason => exact .error (startFault_of_argv h _)
  | none =>
      cases he : Effect.applyAll (w.cwd / c.cwd) (w.script.headD .idle).effects w.disk with
      | error e d =>
          have hplain := Effect.fails_applyAll _ _ _ _ _ he
          cases hplain with
          | os o => exact .error (startFault_of_argv h _)
          | nul => exact .error .nul
      | ok u d =>
          have hlength : 2 ≤ (c.contents d w.cwd).length := by rwa [contents, List.length_map]
          -- a command has two words at least, so a process that works on files finds them
          have hsome := (w.script.headD .idle).withContents_isSome hlength
          cases hp : (w.script.headD .idle).withContents? (c.contents d w.cwd) with
          | none =>
              rw [hp] at hsome
              cases hsome
          | some p =>
              simp only [hp]
              exact .ok ⟨rfl, rfl, Process.seconds_withContents hp⟩

/-- From one world to the other a process was waited for. -/
structure Waited (limit : Option Number) (w w' : World) : Prop where
  clock : ∃ x, ((w.script.headD .idle).waiting limit).toFloat? = some x ∧ w'.clock = w.clock + x
  script_eq : w'.script = w.script.tail

/-- The fault of a clock that cannot tell how long the next process takes. -/
def Untold (limit : Option Number) (w : World) : Prop :=
  ¬ (w.script.headD .idle).Timed limit w.clock

variable {limit : Option Number} {w : World}

/-- The clock goes on by the time that the process is waited for, if that is a number. -/
theorem meets_pass (limit : Option Number) (w : World) :
    Meets (fun v => v.clock = w.clock ∧ v.script = w.script.tail) (fun _ => Waited limit w)
      (Fault.OfCommand (Untold limit w)) (pass ((w.script.headD .idle).waiting limit)) := by
  intro v hv
  unfold pass
  cases htime : ((w.script.headD .idle).waiting limit).toFloat? with
  | some x => exact .ok ⟨⟨x, htime, by rw [← hv.1]⟩, hv.2⟩
  | none =>
      refine .error (.clock ?_ _)
      rintro ⟨x, hx, -⟩
      rw [htime] at hx
      cases hx

/-- A time-out is logged with the name of the program, and there is one. -/
theorem meets_logTimeout (h : 2 ≤ c.argv.length) (p : Process) {E : Fault → Prop} :
    Meets (Waited limit w) (fun _ => Waited limit w) E (c.logTimeout p) := by
  obtain ⟨program, args, hargv⟩ :=
    List.exists_cons_of_length_pos (Nat.lt_of_lt_of_le Nat.zero_lt_two h)
  unfold logTimeout
  split
  · refine Step.meets_bind (Q := fun _ => Waited limit w)
      (Step.meets_ofExcept (fun _ _ _ hv => hv) ?_) fun _ => ?_
    · intro e he
      unfold Command.program at he
      rw [hargv] at he
      cases he
    · intro v hv
      obtain ⟨stderr, hlog⟩ := World.log_apply .command _ v
      rw [hlog]
      exact .ok ⟨hv.clock, hv.script_eq⟩
  · exact Step.meets_pure fun _ hv => hv

/-- A duration without a number of milliseconds is a fault of the clock. -/
theorem milliseconds_eq_error {x : Float} {e : Fault} (h : milliseconds x = .error e) :
    ∃ e', e = .clock e' := by
  unfold milliseconds at h
  split at h
  · cases h
  · cases h
    exact ⟨_, rfl⟩

/-- The end of a process is measured by the clock, between its reading before and after. -/
theorem meets_finish (p : Process) :
    Meets (Waited limit w) (fun _ => Waited limit w) (Fault.OfCommand (Untold limit w))
      (c.finish p w.clock) := by
  intro v hv
  obtain ⟨x, hx, hclock⟩ := hv.clock
  unfold finish
  rw [Step.bind_ok (Step.get_apply v), hclock]
  cases hn : milliseconds (w.clock + x - w.clock) with
  | ok n => exact .ok hv
  | error e =>
      obtain ⟨e', rfl⟩ := milliseconds_eq_error hn
      refine .error (.clock ?_ _)
      rintro ⟨x', hx', n, hn'⟩
      rw [hx] at hx'
      cases hx'
      rw [hn] at hn'
      cases hn'

/-- **What a command comes to in time.**  It takes the next entry of the script and lets the
    clock go on by the time that it has waited.  Where the clock can tell that, only a
    process that cannot be started, or one that is to change a path that no name can match,
    is a fault. -/
theorem meets_run (h : 2 ≤ c.argv.length) (w : World) :
    Meets (· = w) (fun _ => Waited c.limit w) (Fault.OfCommand (Untold c.limit w)) c.run := by
  rw [run_eq]
  refine Step.meets_bind (Q := fun _ v => v.clock = w.clock ∧ v.script = w.script) ?_ fun _ => ?_
  · intro v hv
    obtain ⟨stderr, hlog⟩ := World.log_apply .command
      ("run: " ++ String.intercalate " " c.argv ++ " (cwd=" ++ c.cwd.text ++ ")") v
    rw [hlog, hv]
    exact .ok ⟨rfl, rfl⟩
  refine Step.meets_bind (Q := fun u v => u.clock = w.clock ∧ v.clock = w.clock
    ∧ v.script = w.script) (Step.meets_get fun v hv => ⟨hv.1, hv⟩) fun u => ?_
  rintro v ⟨hu, hv⟩
  -- a process that does not start leaves the clock alone, so it is no fault of that
  have hstart := (meets_start h w.clock w.script).mono_error fun e he =>
    he.mono (b := Untold c.limit w) False.elim
  refine Step.meets_bind hstart (fun p => ?_) v hv
  rintro v' ⟨hclock, hscript, hseconds⟩
  rw [Process.waiting_congr hseconds, hu]
  refine Step.meets_bind (meets_pass c.limit w) (fun _ => ?_) v' ⟨hclock, hscript⟩
  exact Step.meets_bind (meets_logTimeout h p) fun _ => meets_finish p

/-- From any world a command ends in one of its faults, the one of the clock among them. -/
theorem fails_run (h : 2 ≤ c.argv.length) : Fails (Fault.OfCommand True) c.run := by
  intro w e w' hrun
  exact ((meets_run h w).of_eq_error rfl hrun).mono fun _ => trivial

end Command

/-! ## The round trip -/

/-- A store that is refused is a defect. -/
theorem fails_store {p : Path} (hnul : p.holdsNul = false) (content : Bytes) :
    Fails (fun e => ∃ d, e = .defect d) (Workspace.store p content) := by
  intro w e w' h
  -- the name is one that can be had, so only the system refuses
  have hwrite : Fails (fun e => ∃ o, e = .os o) (Disk.writeWithParents w.cwd p content) :=
    Disk.fails_writeWithParents (fun o => ⟨o, rfl⟩) fun hn => absurd hn (by simp [hnul])
  refine Step.fails_within (E := fun e => ∃ d, e = .defect d) hwrite ?_ w e w' h
  rintro _ ⟨o, rfl⟩
  exact ⟨_, rfl⟩

/-- A property of the world is kept, or one of some faults comes up, while a case is taken
    through its round trip in a directory. -/
structure Bears (P : World → Prop) (E : Fault → Prop) (C : Command → Prop) (t : Comparator)
    (dir : Path) : Prop where
  console : ∀ w stdout stderr, P w → P { w with stdout := stdout, stderr := stderr }
  run : ∀ c, C c → Meets P (fun _ => P) E c.run
  store : ∀ (a : Artifact) (content : Bytes),
    Meets P (fun _ => P) E (Workspace.store (a.path dir) content)
  quoting : ∀ e, Text.ShellWords.split t.words = .error e → E (.quoting e)
  defect : ∀ d, E (.defect d)

namespace Bears

open Verification

variable {P : World → Prop} {E : Fault → Prop} {C : Command → Prop} {c : Case}
  {compiler : Compiler} {t : Comparator} {dir : Path}

theorem meets_prints {α : Type} {x : Action World α} (h : Bears P E C t dir) (hx : Prints x) :
    Meets P (fun _ => P) E x := hx.meets h.console

/-- The comparison is judged by its exit code; a third one is a defect. -/
theorem meets_judge (h : Bears P E C t dir) (i : Invocation) :
    Meets P (fun _ => P) E (judge t dir i) := by
  unfold judge
  split
  · exact h.meets_prints (prints_bind (prints_log _ _) fun _ => prints_pure _)
  · exact Step.meets_throw (h.defect _)

/-- The comparison as a whole, from the words of its tool on. -/
theorem meets_compare (h : Bears P E C t dir)
    (hC : ∀ words, Text.ShellWords.split t.words = .ok words → C (comparison t words dir)) :
    Meets P (fun _ => P) E
      (t.compare (Artifact.expected.path dir) (Artifact.obtained.path dir)) := by
  cases hw : Text.ShellWords.split t.words with
  | ok words =>
      rw [compare_eq hw]
      exact Step.meets_bind (h.run _ (hC words hw)) h.meets_judge
  | error e =>
      intro w _
      unfold Comparator.compare Comparator.argv
      rw [hw]
      exact .error (h.quoting e hw)

theorem meets_reimportAndCompare (h : Bears P E C t dir) (hC : AllCommands C c compiler t dir) :
    Meets P (fun _ => P) E (reimportAndCompare c compiler t dir) := by
  refine Step.meets_bind (h.run _ hC.importDocument) fun i => ?_
  split
  · exact h.meets_prints (prints_pure _)
  refine Step.meets_bind (h.store .obtained _) fun _ =>
    Step.meets_bind (h.store .messages _) fun _ => ?_
  split
  · exact h.meets_prints (prints_pure _)
  refine Step.meets_bind (h.meets_compare hC.comparison) fun d => ?_
  split
  · exact h.meets_prints (prints_pure _)
  · exact h.meets_prints (prints_pure _)

/-- The export and what follows it. -/
theorem meets_roundTrip (h : Bears P E C t dir) (hC : AllCommands C c compiler t dir) :
    Meets P (fun _ => P) E (roundTrip c compiler t dir) := by
  refine Step.meets_bind (h.run _ hC.exportDocument) fun i => ?_
  split
  · exact h.meets_prints (prints_pure _)
  refine Step.meets_bind (h.store .expected _) fun _ => ?_
  split
  · exact h.meets_prints (prints_pure _)
  · exact h.meets_reimportAndCompare hC

end Bears

namespace Verification

variable {c : Case} {compiler : Compiler} {t : Comparator} {words : List String} {dir : Path}

/-- Each command has a program and an argument. -/
theorem allCommands_two_le_argv (c : Case) (compiler : Compiler) (t : Comparator) (dir : Path) :
    AllCommands (fun k => 2 ≤ k.argv.length) c compiler t dir where
  probe := by simp [Compiler.probe, Compiler.command]
  exportDocument := by simp [Compiler.exportDocument, Compiler.command, Compiler.formatArgs]
  importDocument := by simp [Compiler.importDocument, Compiler.command]
  comparison := fun words _ => by simp [comparison]

/-- **A round trip ends in a defect, if it ends in a fault** that is not brought about
    by what a process does. -/
theorem fails_roundTrip (hnul : dir.holdsNul = false)
    (hw : Text.ShellWords.split t.words = .ok words) :
    Fails Fault.IsAnswered (roundTrip c compiler t dir) := by
  have hbears : Bears (fun _ => True) Fault.IsAnswered (fun k => 2 ≤ k.argv.length) t dir :=
    { console := fun _ _ _ h => h
      run := fun k hk => (Command.fails_run hk).meets.mono_error fun _ he => he.isAnswered
      store := by
        intro a content
        have hstore := fails_store (p := a.path dir) (by rw [Artifact.holdsNul_path, hnul]) content
        refine hstore.meets.mono_error ?_
        rintro _ ⟨d, rfl⟩
        exact .defect d
      quoting := by
        intro e he
        rw [hw] at he
        cases he
      defect := .defect }
  exact (hbears.meets_roundTrip (allCommands_two_le_argv c compiler t dir)).fails

end Verification

end RoundTrip
