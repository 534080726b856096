import RoundTrip.Proofs.Faults

/-! # What can end each phase of a run

    A run checks its setup, goes through its cases and concludes.  Each phase has faults
    of its own: the first ends in an error of the setup and never in a defect, the
    second the other way round, and the last only in what the disk refuses.

    The clock may fail in the first two.  `OnSchedule` is about that: it is kept by
    commands, unless they end in a fault, and the clock's is among these or not.  One
    walk over the phases serves both readings: **`OnSchedule.meets_prepare`**,
    **`OnSchedule.meets_run`**, **`Harness.fails_conclude`**. -/

namespace RoundTrip

open Step (Keeps Fails Meets endState)

/-- The faults of the setup. -/
inductive Fault.OfSetup (untimed : Prop) : Fault → Prop where
  | setup (e : SetupError) : OfSetup untimed (.setup e)
  | path (e : PathError) : OfSetup untimed (.path e)
  | clock (h : untimed) (e : ClockError) : OfSetup untimed (.clock e)

/-- The faults of a case. -/
inductive Fault.OfCase (untimed : Prop) : Fault → Prop where
  | defect (d : Defect) : OfCase untimed (.defect d)
  | path (e : PathError) : OfCase untimed (.path e)
  | quoting (e : Text.ShellWords.QuotingError) : OfCase untimed (.quoting e)
  | noWorkspaceName : OfCase untimed .noWorkspaceName
  | clock (h : untimed) (e : ClockError) : OfCase untimed (.clock e)

/-- The disk refuses, or a path has no meaning. -/
inductive Fault.OfPath : Fault → Prop where
  | path (e : PathError) : OfPath (.path e)

section Classes

variable {untimed : Prop} {e : Fault}

/-- What the disk refuses may come up in the setup. -/
theorem Fault.OfPath.ofSetup (h : OfPath e) : OfSetup untimed e := by
  cases h with
  | path e => exact .path e

/-- What the disk refuses may come up in a case. -/
theorem Fault.OfPath.ofCase (h : OfPath e) : OfCase untimed e := by
  cases h with
  | path e => exact .path e

/-- Whatever a command ends in is a fault of its case: a program that does not start is a
    defect there. -/
theorem Fault.OfCommand.ofCase (h : OfCommand untimed e) : OfCase untimed e := by
  cases h with
  | notStarted program reason => exact .defect _
  | nul => exact .path _
  | clock h e => exact .clock h e

/-- During the check of the compiler a defect is an error of the setup. -/
theorem Fault.OfCommand.ofSetup (h : OfCommand untimed e) :
    OfSetup untimed (Compiler.setupFault e) := by
  cases h with
  | notStarted program reason => exact .setup _
  | nul => exact .path _
  | clock h e => exact .clock h e

end Classes

/-! ## Faults of single actions -/

/-- The guard ends in a defect, or in a look-up that is refused, and changes nothing. -/
theorem meets_refuseExisting {P : World → Prop} {untimed : Prop} (p : Path) :
    Meets P (fun _ => P) (Fault.OfCase untimed) (Workspace.refuseExisting p) := by
  refine Step.meets_bind (Step.keeps_get.meets Step.fails_get) fun w => ?_
  refine Step.meets_bind
        ((Step.keeps_ofExcept _ _).meets (Step.fails_ofExcept fun e _ => .path e)) fun isThere => ?_
  split
  · exact Step.meets_throw (.defect _)
  · exact Step.meets_pure fun _ hw => hw

/-- A file that is not there is removed already, so only other refusals are faults. -/
theorem fails_removeIfPresent (p : Path) : Fails Fault.OfPath (Workspace.removeIfPresent p) := by
  intro w e w' h
  rw [removeIfPresent_apply] at h
  split at h
  · cases h
  · cases h
  · cases h
    exact .path _

/-- The report fails to be written only where the disk refuses it. -/
theorem fails_storeDocument (p : Path) (document : Json) :
    Fails Fault.OfPath (Workspace.storeDocument p document) := by
  intro w e w' h
  unfold Workspace.storeDocument World.edit at h
  exact Step.fails_within (D := fun _ => True) (fun _ _ _ _ => trivial) (fun e _ => .path e)
    w e w' h

/-- A workspace whose removal is refused is told of in a warning.  That is no fault. -/
theorem fails_leave (p : Path) : Fails Fault.OfPath (Workspace.leave p) := by
  refine Step.fails_bind ?_ fun _ => Step.fails_modify _
  refine Step.fails_bind Step.fails_get fun w => ?_
  split
  · exact Step.fails_set _
  refine Step.fails_bind (Step.fails_set _) fun _ => ?_
  split
  · exact Step.fails_throw (.path _)
  · exact Step.fails_pure _
  · exact Step.fails_modify _

theorem fails_tryNext (stem : String) : Fails Fault.OfPath (Workspace.tryNext stem) := by
  refine Step.fails_bind Step.fails_get fun w => Step.fails_bind (Step.fails_set _) fun _ => ?_
  split
  · exact Step.fails_throw (.path _)
  split
  · exact Step.fails_throw (.path _)
  split
  · exact Step.fails_bind (Step.fails_modify _) fun _ => Step.fails_pure _
  · exact Step.fails_pure _
  · exact Step.fails_throw (.path _)

/-- When all names have been tried the search for one ends in a fault of its own. -/
theorem fails_create {untimed : Prop} (stem : String) (tries : Nat) :
    Fails (Fault.OfCase untimed) (Workspace.create stem tries) := by
  induction tries with
  | zero => exact Step.fails_throw .noWorkspaceName
  | succ tries ih =>
      rw [Workspace.create]
      have hnext : Fails (Fault.OfCase untimed) (Workspace.tryNext stem) :=
        fun w e w' h => (fails_tryNext stem w e w' h).ofCase
      refine Step.fails_bind hnext fun name? => ?_
      cases name? with
      | some p => exact Step.fails_pure p
      | none => exact ih

/-- To enter a workspace fails as its making does. -/
theorem fails_enter {untimed : Prop} (stem : String) :
    Fails (Fault.OfCase untimed) (Workspace.enter stem) :=
  Step.fails_bind (fails_create stem _) fun _ =>
    Step.fails_bind (Step.fails_modify _) fun _ => Step.fails_pure _

/-- What the system refuses to store is a defect; a path without a meaning is a fault of its
    own. -/
theorem fails_storeCase {untimed : Prop} (p : Path) (content : Bytes) :
    Fails (Fault.OfCase untimed) (Workspace.store p content) := by
  intro w e w' h
  -- which error of the disk it is decides what the fault is called
  refine Step.fails_within (D := fun _ => True) (fun _ _ _ _ => trivial) ?_ w e w' h
  intro e _
  cases e with
  | os e => exact .defect _
  | nul => exact .path _
  | linkLoop p => exact .path _

/-! ## Properties of the schedule -/

/-- A property of the clock and of the script that commands with this limit keep, as long
    as they come to no fault. -/
structure OnSchedule (P : World → Prop) (untimed : Prop) (limit : Option Number) : Prop where
  frame : ∀ w w' : World, w'.clock = w.clock → w'.script = w.script → P w → P w'
  run : ∀ c : Command, c.limit = limit → 2 ≤ c.argv.length →
    Meets P (fun _ => P) (Fault.OfCommand untimed) c.run

/-- With no property to be kept, the clock may fail at any time. -/
theorem OnSchedule.trivial (limit : Option Number) : OnSchedule (fun _ => True) True limit where
  frame := fun _ _ _ _ h => h
  run := fun _ _ h => (Command.fails_run h).meets

namespace OnSchedule

variable {P : World → Prop} {untimed : Prop} {limit : Option Number} {α : Type}

/-- What stands on the console has nothing to do with the schedule. -/
theorem meets_prints (h : OnSchedule P untimed limit) {E : Fault → Prop} {x : Action World α}
    (hx : Prints x) : Meets P (fun _ => P) E x :=
  hx.meets fun w _ _ hw => h.frame w _ rfl rfl hw

/-- The removal of a file changes the disk only. -/
theorem meets_removeIfPresent (h : OnSchedule P untimed limit) (p : Path) :
    Meets P (fun _ => P) Fault.OfPath (Workspace.removeIfPresent p) := by
  refine Step.Keeps.meets ?_ (fails_removeIfPresent p)
  intro w hw
  obtain hend | ⟨d, -, hend⟩ := endState_removeIfPresent p w
  · rwa [hend]
  · rw [hend]
    exact h.frame w _ rfl rfl hw

/-- The storing of a file changes the disk only. -/
theorem meets_store (h : OnSchedule P untimed limit) (p : Path) (content : Bytes) :
    Meets P (fun _ => P) (Fault.OfCase untimed) (Workspace.store p content) := by
  refine Step.Keeps.meets ?_ (fails_storeCase p content)
  intro w hw
  rw [endState_store]
  exact h.frame w _ rfl rfl hw

/-- To leave a workspace changes the disk and the console. -/
theorem meets_leave (h : OnSchedule P untimed limit) (p : Path) :
    Meets P (fun _ => P) Fault.OfPath (Workspace.leave p) := by
  refine Step.Keeps.meets ?_ (fails_leave p)
  -- first the removal, then the line of the log
  refine Step.keeps_bind ?_ fun _ => ?_
  · intro w hw
    obtain ⟨stdout, hend, -⟩ := endState_remove p w
    rw [hend]
    exact h.frame w _ rfl rfl hw
  · intro w hw
    obtain ⟨stderr, hlog⟩ := World.log_apply .workspace ("workspace removed: " ++ p.text) w
    rw [hlog]
    exact h.frame w _ rfl rfl hw

/-- To enter a workspace changes the disk, the console and the count of names. -/
theorem meets_enter (h : OnSchedule P untimed limit) :
    Meets P (fun _ => P) (Fault.OfCase untimed) (Workspace.enter Workspace.defaultStem) := by
  have hkeeps : Keeps P (Workspace.enter Workspace.defaultStem) := by
    intro w hw
    obtain ⟨e, count, henter⟩ | ⟨n, count, d, stderr, -, -, henter⟩ := enter_apply w
    · rw [henter]
      exact h.frame w _ rfl rfl hw
    · rw [henter]
      exact h.frame w _ rfl rfl hw
  exact hkeeps.meets (fails_enter _)

/-! ## The cases -/

section Verification

open Verification

variable {c : Case} {compiler : Compiler} {t : Comparator} {dir : Path}

/-- The commands of a verification all have the limit of the run, and words enough for a
    program and an argument. -/
theorem allCommands_limit (hcompiler : compiler.limit = limit) (ht : t.limit = limit) (c : Case)
    (dir : Path) :
    AllCommands (fun k => k.limit = limit ∧ 2 ≤ k.argv.length) c compiler t dir :=
  have hargv := allCommands_two_le_argv c compiler t dir
  ⟨⟨hcompiler, hargv.probe⟩, ⟨hcompiler, hargv.exportDocument⟩, ⟨hcompiler, hargv.importDocument⟩,
    fun words hw => ⟨ht, hargv.comparison words hw⟩⟩

/-- One command of a case, as the schedule has it. -/
theorem meets_command (h : OnSchedule P untimed limit) {k : Command}
    (hk : k.limit = limit ∧ 2 ≤ k.argv.length) :
    Meets P (fun _ => P) (Fault.OfCase untimed) k.run :=
  (h.run k hk.1 hk.2).mono_error fun _ he => he.ofCase

/-- The schedule bears everything that a round trip consists of. -/
theorem bears (h : OnSchedule P untimed limit) (t : Comparator) (dir : Path) :
    Bears P (Fault.OfCase untimed) (fun k => k.limit = limit ∧ 2 ≤ k.argv.length) t dir where
  console := fun w _ _ hw => h.frame w _ rfl rfl hw
  run := fun _ hk => h.meets_command hk
  store := fun a content => h.meets_store (a.path dir) content
  quoting := fun e _ => .quoting e
  defect := .defect

/-- A verification ends in faults of its case only, its removal of the artifacts included. -/
theorem meets_verify (h : OnSchedule P untimed limit) (hcompiler : compiler.limit = limit)
    (ht : t.limit = limit) (c : Case) (dir : Path) :
    Meets P (fun _ => P) (Fault.OfCase untimed) (verify c compiler t dir) := by
  have hC := allCommands_limit hcompiler ht c dir
  have hclear : Meets P (fun _ => P) Fault.OfPath (Workspace.clearArtifacts dir) :=
    Step.meets_forM fun a _ => h.meets_removeIfPresent (a.path dir)
  -- after an error nothing is known of the world, so the clean-up has to be bounded from any
  have hfails : Fails Fault.OfPath (Workspace.clearArtifacts dir) :=
    (Step.meets_forM fun a _ => (fails_removeIfPresent (a.path dir)).meets).fails
  refine Step.meets_bind (h.meets_command hC.probe) fun i => ?_
  split
  · exact h.meets_prints (prints_pure _)
  split
  · exact h.meets_prints (prints_pure _)
  refine Step.meets_bind (Step.meets_forM fun a _ => meets_refuseExisting (a.path dir))
    fun _ => ?_
  refine Step.meets_ensuring ((h.bears t dir).meets_roundTrip hC) (fun _ => ?_) ?_
  · exact hclear.mono_error fun _ he => he.ofCase
  · exact fun w e w' he => (hfails w e w' he).ofCase

end Verification

/-- What comes of splitting is never an answer that is not known. -/
theorem meets_split (h : OnSchedule P untimed limit) (splitter source dir : Path) :
    Meets P (fun splitting w => P w ∧ splitting ≠ .unknown) (Fault.OfCase untimed)
      (Splitter.split splitter limit source dir) := by
  have hargv : 2 ≤ (Splitter.argv splitter source).length := by
    unfold Splitter.argv
    split <;> simp
  refine Step.meets_bind (h.meets_command ⟨rfl, hargv⟩) fun i => ?_
  dsimp only
  split
  · exact Step.meets_pure fun _ hw => ⟨hw, by simp⟩
  split
  · split
    · exact Step.meets_pure fun _ hw => ⟨hw, by simp⟩
    · refine Step.meets_bind (Step.keeps_get.meets Step.fails_get) fun w => ?_
      refine Step.meets_bind
        ((Step.keeps_ofExcept _ _).meets (Step.fails_ofExcept fun e _ => .path e)) fun files => ?_
      exact Step.meets_pure fun _ hw => ⟨hw, by simp⟩
  split
  · exact Step.meets_pure fun _ hw => ⟨hw, by simp⟩
  split
  · exact Step.meets_pure fun _ hw => ⟨hw, by simp⟩
  · exact Step.meets_pure fun _ hw => ⟨hw, by simp⟩

/-- The inputs are told from the answer of the splitter, which the last lemma has shown to be
    known. -/
theorem meets_inputs (h : OnSchedule P untimed limit) (splitting : Splitting) (source : Path)
    (splitter : Option Path) :
    Meets (fun w => P w ∧ splitting ≠ .unknown) (fun _ => P) (Fault.OfCase untimed)
      (splitting.inputs source splitter) := by
  cases splitting with
  | into files => exact Step.meets_pure fun _ hw => hw.1
  | single file => exact Step.meets_pure fun _ hw => hw.1
  | undecodable message =>
      have hprints : Prints ((Splitting.undecodable message).inputs source splitter) :=
        prints_bind (prints_printErrorLine _) fun _ =>
          prints_bind (prints_log _ _) fun _ => prints_pure _
      exact (h.meets_prints hprints).mono (fun _ hw => hw.1) (fun _ _ hw => hw) fun _ he => he
  | broken exitCode message => exact Step.meets_throw (.defect _)
  -- this answer is excluded by what the splitter leaves
  | unknown => exact fun w hw => absurd rfl hw.2

end OnSchedule

namespace Session

variable {P : World → Prop} {α : Type} {Q : α → World → Prop} {E : Fault → Prop}

/-- A contract for worlds is one for sessions. -/
theorem meets_inWorld {x : Action World α} (hx : Meets P Q E x) :
    Meets (fun s : Session => P s.world) (fun a s => Q a s.world) E (inWorld x) := by
  intro s hs
  unfold inWorld Step.within
  cases hr : x s.world with
  | ok a w => exact .ok (hx.of_eq_ok hs hr)
  | error e w => exact .error (hx.of_eq_error hs hr)

/-- The tally and the journal are not the world. -/
theorem meets_modify {f : Session → Session} (hf : ∀ s, (f s).world = s.world) :
    Meets (fun s : Session => P s.world) (fun _ s => P s.world) E
      (modify f : Action Session PUnit) :=
  Step.meets_modify fun s hs => by rwa [hf s]

end Session

namespace OnSchedule

open Harness

variable {P : World → Prop} {untimed : Prop} {limit : Option Number} {s : Configuration}

/-- The examination of a case, part by part: the splitter, the inputs, the verification. -/
theorem meets_examine (h : OnSchedule P untimed s.limit) (o : Options) (number : Nat)
    (source dir : Path) :
    Meets (fun t : Session => P t.world) (fun _ t => P t.world) (Fault.OfCase untimed)
      ((plan s o).examine number source dir) := by
  refine Step.meets_bind (Session.meets_modify fun _ => rfl) fun _ => ?_
  refine Step.meets_bind (Session.meets_inWorld (h.meets_split s.splitter source dir))
    fun splitting => ?_
  refine Step.meets_bind (Session.meets_inWorld (h.meets_inputs splitting source _))
    fun inputs => ?_
  refine Step.meets_bind (Session.meets_modify fun _ => rfl) fun _ => ?_
  exact Session.meets_inWorld (h.meets_verify rfl rfl ⟨source, inputs⟩ dir)

/-- A case with the workspace around it.  That is left at every end, so its removal must not
    fail in another way. -/
theorem meets_tryCase (h : OnSchedule P untimed s.limit) (o : Options) (number : Nat)
    (source : Path) :
    Meets (fun t : Session => P t.world) (fun _ t => P t.world) (Fault.OfCase untimed)
      ((plan s o).tryCase number source) := by
  refine Step.meets_bind (Session.meets_inWorld h.meets_enter) fun dir => ?_
  have hleave : Meets (fun t : Session => P t.world) (fun _ t => P t.world) (Fault.OfCase untimed)
      (Session.inWorld (Workspace.leave dir)) :=
    Session.meets_inWorld ((h.meets_leave dir).mono_error fun _ he => he.ofCase)
  have hfails : Fails (Fault.OfCase untimed) (Session.inWorld (Workspace.leave dir)) :=
    Step.fails_within (fails_leave dir) fun _ he => he.ofCase
  refine Step.meets_bind (Q := fun _ t => P t.world)
    (Step.meets_ensuring (h.meets_examine o number source dir) (fun _ => hleave) hfails) fun r => ?_
  refine Step.meets_bind (Session.meets_modify fun _ => rfl) fun _ => ?_
  refine Step.meets_bind (Session.meets_inWorld (h.meets_prints (prints_log _ _))) fun _ => ?_
  exact Step.meets_pure fun _ ht => ht

/-- A case with the hooks before and after it, which only print. -/
theorem meets_step (h : OnSchedule P untimed s.limit) (o : Options) (number : Nat)
    (source : Path) :
    Meets (fun t : Session => P t.world) (fun _ t => P t.world) (Fault.OfCase untimed)
      ((plan s o).step number source) := by
  refine Step.meets_bind (Session.meets_modify fun _ => rfl) fun _ => ?_
  refine Step.meets_bind (Session.meets_inWorld (h.meets_prints (prints_tick source)))
    fun _ => ?_
  refine Step.meets_bind (h.meets_tryCase o number source) fun r => ?_
  refine Step.meets_bind (Step.keeps_get.meets Step.fails_get) fun t => ?_
  refine Step.meets_bind (Session.meets_modify fun _ => rfl) fun _ => ?_
  refine Step.meets_bind (Session.meets_inWorld (h.meets_prints (prints_announce r))) fun _ => ?_
  exact Step.meets_pure fun _ ht => ht

/-- **The cases of a run end in no error of the setup.** -/
theorem meets_run (h : OnSchedule P untimed s.limit) (o : Options) (sources : List Path) :
    Meets (fun t : Session => P t.world) (fun _ t => P t.world) (Fault.OfCase untimed)
      ((plan s o).run sources) := by
  unfold Plan.run
  -- the number of the first case has to be free for the induction
  generalize 0 = number
  induction sources generalizing number with
  | nil => exact Step.meets_pure fun _ ht => ht
  | cons source rest ih =>
      rw [Plan.runFrom]
      refine Step.meets_bind (h.meets_step o number source) fun r => ?_
      split
      · exact Session.meets_inWorld (h.meets_prints (prints_log _ _))
      · exact ih (number + 1)

/-! ## Before the cases, and after them -/

/-- A root that is no directory is told of; one whose look-up is refused ends the setup. -/
theorem meets_readableRoots (h : OnSchedule P untimed limit) (roots : List Path) :
    Meets P (fun _ => P) Fault.OfPath (Discovery.readableRoots roots) := by
  induction roots with
  | nil => exact Step.meets_pure fun _ hw => hw
  | cons root rest ih =>
      refine Step.meets_bind (Step.keeps_get.meets Step.fails_get) fun w => ?_
      refine Step.meets_bind
        ((Step.keeps_ofExcept _ _).meets (Step.fails_ofExcept fun e _ => .path e))
        fun readable => ?_
      split
      · exact Step.meets_bind ih fun _ => Step.meets_pure fun _ hw => hw
      · exact Step.meets_bind (h.meets_prints (prints_printLine _)) fun _ => ih

/-- The search fails for want of roots, or where the disk refuses. -/
theorem meets_findSources (h : OnSchedule P untimed limit) (roots : List Path)
    (c : Discovery.Criteria) :
    Meets P (fun _ => P) (Fault.OfSetup untimed) (Discovery.findSources roots c) := by
  refine Step.meets_bind ((h.meets_readableRoots roots).mono_error fun _ he => he.ofSetup)
    fun readable => ?_
  split
  · exact Step.meets_throw (.setup _)
  refine Step.meets_bind (Step.keeps_get.meets Step.fails_get) fun w => ?_
  refine Step.meets_bind
        ((Step.keeps_ofExcept _ _).meets (Step.fails_ofExcept fun e _ => .path e)) fun found => ?_
  exact h.meets_prints (prints_bind (prints_log _ _) fun _ => prints_pure _)

/-- A compiler that is missing, or does not tell its version, is an error of the setup. -/
theorem meets_identify (h : OnSchedule P untimed s.limit) (o : Options) :
    Meets P (fun _ => P) (Fault.OfSetup untimed) (compiler s o).identify := by
  have hversion := h.run (compiler s o).version rfl (by simp [Compiler.version, Compiler.command])
  refine Step.meets_bind (Step.keeps_get.meets Step.fails_get) fun w => ?_
  refine Step.meets_bind
        ((Step.keeps_ofExcept _ _).meets (Step.fails_ofExcept fun e _ => .path e)) fun isThere => ?_
  split
  · refine Step.meets_bind (Step.meets_rethrow hversion fun _ he => he.ofSetup) fun i => ?_
    split
    · exact Step.meets_pure fun _ hw => hw
    · exact Step.meets_throw (.setup _)
  · exact Step.meets_throw (.setup _)

/-- **The checks of the setup end in no defect.** -/
theorem meets_prepare (h : OnSchedule P untimed s.limit) (o : Options) :
    Meets P (fun _ => P) (Fault.OfSetup untimed) (prepare s o) := by
  refine Step.meets_bind (h.meets_identify o) fun version => ?_
  refine Step.meets_bind (h.meets_prints (prints_log _ _)) fun _ => ?_
  refine Step.meets_bind (Step.keeps_get.meets Step.fails_get) fun w => ?_
  refine Step.meets_bind
        ((Step.keeps_ofExcept _ _).meets (Step.fails_ofExcept fun e _ => .path e))
        fun hasSplitter => ?_
  split
  · refine Step.meets_bind (h.meets_findSources s.testRoots (criteria s)) fun sources => ?_
    exact h.meets_prints (prints_bind (prints_printLine _) fun _ => prints_pure _)
  · exact Step.meets_throw (.setup _)

end OnSchedule

/-- The end of a run fails only where the disk refuses the report. -/
theorem Harness.fails_conclude (s : Configuration) (o : Options) (t : Tally) :
    Fails Fault.OfPath (conclude s o t) := by
  have hsummary : Meets (fun _ => True) (fun _ _ => True) Fault.OfPath (Report.announceSummary t) :=
    (prints_announceSummary t).meets fun _ _ _ hw => hw
  refine Step.fails_bind hsummary.fails fun _ => ?_
  split
  · exact fails_storeDocument _ _
  · exact Step.fails_pure _

end RoundTrip
