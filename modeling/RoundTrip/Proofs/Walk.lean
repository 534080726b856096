import RoundTrip.Harness
import RoundTrip.Proofs.Frame
import RoundTrip.Proofs.Verification

/-! # What a run keeps

    A case runs commands, writes and removes artifacts, and otherwise only does
    quiet things.  A property of the world that `Lasts` under these is kept by the
    verification (`Lasts.keeps_verify`), by all that is done for a source within its
    workspace (`Lasts.keeps_examine`) and, if the workspace keeps it too, by the run
    over all sources: **`Plan.keeps_run`**.

    The property may speak of the starts so far, so this is the way to say something
    of every process that a run starts. -/

namespace RoundTrip

open Step (Keeps)

variable {P : World → Prop} {C : Command → Prop} {dir : Path}

/-- A property of the world lasts while a case is examined in a directory: some
    commands keep it, what is done to the artifacts there keeps it, and so does
    everything quiet. -/
structure Lasts (P : World → Prop) (C : Command → Prop) (dir : Path) : Prop where
  quiet : ∀ {α : Type} {x : Action World α}, Quiet x → Keeps P x
  run : ∀ c, C c → Keeps P c.run
  store : ∀ (a : Artifact) (content : Bytes), Keeps P (Workspace.store (a.path dir) content)
  remove : ∀ a : Artifact, Keeps P (Workspace.removeIfPresent (a.path dir))

/-- What is said of the starts alone lasts if the commands keep it. -/
theorem Lasts.of_record (hrecord : ∀ w w' : World, w'.record = w.record → P w → P w')
    (hrun : ∀ c, C c → Keeps P c.run) : Lasts P C dir where
  quiet := fun hx => hx.startsNothing.keeps hrecord
  run := hrun
  store := fun _ _ => (startsNothing_store _ _).keeps hrecord
  remove := fun _ => (startsNothing_removeIfPresent _).keeps hrecord

/-! ## One case -/

open Verification in
/-- To judge a comparison is to log what it has shown. -/
theorem quiet_judge (t : Comparator) (dir : Path) (i : Invocation) : Quiet (judge t dir i) := by
  unfold judge
  split
  · exact quiet_bind (quiet_log _ _) fun _ => quiet_pure _
  · exact quiet_throw _

/-- The guard looks for each of the artifacts. -/
theorem Verification.looks_guardArtifacts (dir : Path) : Looks (guardArtifacts dir) :=
  fun P => Step.keeps_forM fun a _ => looks_refuseExisting (a.path dir) P

/-- What is said of commands holds of all that a verification may run. -/
structure Verification.AllCommands (C : Command → Prop) (c : Case) (compiler : Compiler)
    (t : Comparator) (dir : Path) : Prop where
  probe : C (compiler.probe c.inputs dir)
  exportDocument : C (compiler.exportDocument c.inputs dir)
  importDocument : C (compiler.importDocument (Path.ofString Artifact.expected.name) dir)
  comparison : ∀ words, Text.ShellWords.split t.words = .ok words → C (comparison t words dir)

/-- All commands of a verification are run from the workspace. -/
theorem Verification.allCommands_cwd (c : Case) (compiler : Compiler) (t : Comparator)
    (dir : Path) : AllCommands (fun k => k.cwd = dir) c compiler t dir :=
  ⟨rfl, rfl, rfl, fun _ _ => rfl⟩

/-- What is made of the report of the splitter. -/
def Splitter.outcome (limit : Option Number) (source dir : Path) (i : Invocation) :
    Action World Splitting :=
  let output := Text.decode (i.stdout ++ i.stderr)
  if i.timedOut then
    pure (.broken i.exitCode
      ("splitter timed out after " ++ (limit.map Number.text).getD "" ++ "s\n" ++ output))
  else if i.exitCode = 0 then
    let names := Text.wordsOf (Text.decode i.stdout)
    if names.isEmpty then
      pure (.broken 0 ("splitter reported success without output files\n" ++ output))
    else do
      let files ← Step.ofExcept Fault.path (resolveNames dir names (← get))
      pure (.into files)
  else if i.exitCode = 1 then pure (.single source)
  else if i.exitCode = 2 then pure (.undecodable output)
  else pure (.broken i.exitCode output)

/-- To split a source is to run a command and to read its answer. -/
theorem Splitter.split_eq (splitter : Path) (limit : Option Number) (source dir : Path) :
    Splitter.split splitter limit source dir
      = (command splitter source dir limit).run >>= outcome limit source dir := rfl

theorem Splitter.argv_command (splitter source dir : Path) (limit : Option Number) :
    (command splitter source dir limit).argv = argv splitter source := by
  unfold command
  rfl

/-- The answer is read off the streams and the disk, and changes neither. -/
theorem Splitter.looks_outcome (limit : Option Number) (source dir : Path) (i : Invocation) :
    Looks (outcome limit source dir i) := by
  unfold outcome
  dsimp only
  split
  · exact looks_pure _
  split
  · split
    · exact looks_pure _
    · exact looks_bind looks_get fun w => looks_bind (looks_ofExcept _ _) fun _ => looks_pure _
  split
  · exact looks_pure _
  split
  · exact looks_pure _
  · exact looks_pure _

namespace Lasts

open Verification

variable {c : Case} {compiler : Compiler} {t : Comparator}

/-- The artifacts are removed one after the other. -/
theorem keeps_clearArtifacts (h : Lasts P C dir) : Keeps P (Workspace.clearArtifacts dir) :=
  Step.keeps_forM fun a _ => h.remove a

/-- The comparison may run what the words of its tool say, if they can be read. -/
theorem keeps_compare (h : Lasts P C dir)
    (hC : ∀ words, Text.ShellWords.split t.words = .ok words → C (comparison t words dir)) :
    Keeps P (t.compare (Artifact.expected.path dir) (Artifact.obtained.path dir)) := by
  cases hw : Text.ShellWords.split t.words with
  | ok words =>
      rw [compare_eq hw]
      exact Step.keeps_bind (h.run _ (hC words hw)) fun i => h.quiet (quiet_judge t dir i)
  | error e =>
      -- words that cannot be cut are a fault before anything is started
      intro w hP
      unfold Comparator.compare Comparator.argv
      rw [hw]
      exact hP

/-- Two documents are stored and compared. -/
theorem keeps_afterReimport (h : Lasts P C dir)
    (hC : AllCommands C c compiler t dir) (i : Invocation) :
    Keeps P (afterReimport c t dir i) := by
  unfold afterReimport
  split
  · exact h.quiet (quiet_pure _)
  refine Step.keeps_bind (h.store .obtained _) fun _ =>
    Step.keeps_bind (h.store .messages _) fun _ => ?_
  split
  · exact h.quiet (quiet_pure _)
  · exact Step.keeps_bind (h.keeps_compare hC.comparison) fun d => h.quiet (quiet_pure _)

/-- The reimport is one command and what follows it. -/
theorem keeps_reimportAndCompare (h : Lasts P C dir)
    (hC : AllCommands C c compiler t dir) :
    Keeps P (reimportAndCompare c compiler t dir) := by
  rw [reimportAndCompare_eq]
  exact Step.keeps_bind (h.run _ hC.importDocument) (h.keeps_afterReimport hC)

/-- A document is stored and imported again. -/
theorem keeps_afterExport (h : Lasts P C dir)
    (hC : AllCommands C c compiler t dir) (i : Invocation) :
    Keeps P (afterExport c compiler t dir i) := by
  unfold afterExport
  split
  · exact h.quiet (quiet_pure _)
  refine Step.keeps_bind (h.store .expected _) fun _ => ?_
  split
  · exact h.quiet (quiet_pure _)
  · exact h.keeps_reimportAndCompare hC

/-- What holds after the export lasts until the end. -/
theorem endState_roundTrip (h : Lasts P C dir)
    (hC : AllCommands C c compiler t dir) {w : World}
    (hexport : P (Step.endState ((compiler.exportDocument c.inputs dir).run w))) :
    P (Step.endState (roundTrip c compiler t dir w)) :=
  Step.endState_bind_of hexport (h.keeps_afterExport hC)

/-- From the export to the removal of the artifacts. -/
theorem keeps_roundTrip (h : Lasts P C dir)
    (hC : AllCommands C c compiler t dir) :
    Keeps P (roundTrip c compiler t dir) :=
  fun w hw => h.endState_roundTrip hC (h.run _ hC.exportDocument w hw)

/-- What follows the probe: nothing, the guard, or the round trip. -/
theorem keeps_afterProbe (h : Lasts P C dir)
    (hC : AllCommands C c compiler t dir) (i : Invocation) :
    Keeps P (afterProbe c compiler t dir i) := by
  unfold afterProbe
  split
  · exact h.quiet (quiet_pure _)
  split
  · exact h.quiet (quiet_pure _)
  exact Step.keeps_bind (looks_guardArtifacts dir P) fun _ =>
    Step.keeps_ensuring (h.keeps_roundTrip hC) h.keeps_clearArtifacts

/-- A verification keeps what lasts under its commands. -/
theorem keeps_verify (h : Lasts P C dir)
    (hC : AllCommands C c compiler t dir) :
    Keeps P (verify c compiler t dir) :=
  Step.keeps_bind (h.run _ hC.probe) (h.keeps_afterProbe hC)

/-- Splitting is one command. -/
theorem keeps_split (h : Lasts P C dir) {splitter source : Path} {limit : Option Number}
    (hC : C (Splitter.command splitter source dir limit)) :
    Keeps P (Splitter.split splitter limit source dir) :=
  Step.keeps_bind (h.run _ hC) fun i => Splitter.looks_outcome limit source dir i P

end Lasts

/-! ## Starts are never taken back -/

/-- What never takes a start back. -/
def Grows {α : Type} (x : Action World α) : Prop := ∀ n, Keeps (fun w => n ≤ w.spawns.length) x

/-- What is said of the starts lasts if one start more does not undo it. -/
theorem lasts_starts {Q : List Spawn → Prop} (hQ : ∀ ks k, Q ks → Q (ks ++ [k])) (dir : Path) :
    Lasts (fun w => Q w.spawns) (fun _ => True) dir := by
  refine .of_record (fun w w' hrecord h => ?_) fun c _ w h => ?_
  · rwa [World.spawns_of_record hrecord]
  · obtain ⟨_, _, hspawns⟩ := (Command.ran_run c w).spawns_eq
    rw [hspawns]
    exact hQ _ _ h

theorem length_le_append {n : Nat} (ks : List Spawn) (k : Spawn) (h : n ≤ ks.length) :
    n ≤ (ks ++ [k]).length := by
  rw [List.length_append]
  exact Nat.le_add_right_of_le h

/-- A run never takes back a start. -/
theorem lasts_grows (n : Nat) (dir : Path) :
    Lasts (fun w => n ≤ w.spawns.length) (fun _ => True) dir := lasts_starts length_le_append dir

/-- Any commands may be run. -/
theorem Verification.allCommands_true (c : Case) (compiler : Compiler) (t : Comparator)
    (dir : Path) : AllCommands (fun _ => True) c compiler t dir :=
  ⟨trivial, trivial, trivial, fun _ _ => trivial⟩

/-! ## A run -/

namespace Session

variable {α : Type}

/-- An action that comes to a good end in the world does so in the session. -/
theorem inWorld_of_ok {x : Action World α} {a : α} {s : Session} {w : World}
    (h : x s.world = .ok a w) : inWorld x s = .ok a { s with world := w } := by
  unfold inWorld Step.within
  rw [h]

/-- One that ends in a fault leaves the session with the world as it is then. -/
theorem inWorld_of_error {x : Action World α} {e : Fault} {s : Session} {w : World}
    (h : x s.world = .error e w) : inWorld x s = .error e { s with world := w } := by
  unfold inWorld Step.within
  rw [h]
  rfl

/-- The world of a session after an action is the one that the action leaves. -/
theorem endState_inWorld (x : Action World α) (s : Session) :
    (Step.endState (inWorld x s)).world = Step.endState (x s.world) := by
  unfold inWorld Step.within
  cases x s.world with
  | ok a w => rfl
  | error e w => rfl

/-- What an action keeps of the world is kept in the session. -/
theorem keeps_inWorld {x : Action World α} (hx : Keeps P x) :
    Keeps (fun s : Session => P s.world) (inWorld x) :=
  Step.keeps_within fun s hs => hx s.world hs

theorem keeps_note (e : Event) : Keeps (fun s : Session => P s.world) (note e) :=
  Step.keeps_modify fun _ h => h

theorem keeps_count (f : Tally → Tally) : Keeps (fun s : Session => P s.world) (count f) :=
  Step.keeps_modify fun _ h => h

end Session

/-- What is done for a source after it was split. -/
def Plan.afterSplit (p : Plan) (source dir : Path) (splitting : Splitting) :
    Action Session Finding := do
  let inputs ← Session.inWorld (splitting.inputs source p.splitter)
  Session.count (·.addSources splitting.growth)
  Session.inWorld (Verification.verify ⟨source, inputs⟩ p.compiler p.comparator dir)

/-- A case is noted and split, and the rest follows. -/
theorem Plan.examine_eq (p : Plan) (number : Nat) (source dir : Path) :
    p.examine number source dir = (do
      Session.note (.workspace dir)
      let splitting ← Session.inWorld (p.split number source dir)
      p.afterSplit source dir splitting) := rfl

/-- What is done after the splitting keeps what lasts. -/
theorem Lasts.keeps_afterSplit (h : Lasts P C dir) {p : Plan} {source : Path}
    (hC : ∀ inputs, Verification.AllCommands C ⟨source, inputs⟩ p.compiler p.comparator dir)
    (splitting : Splitting) :
    Keeps (fun s : Session => P s.world) (p.afterSplit source dir splitting) := by
  refine Step.keeps_bind (Session.keeps_inWorld (h.quiet (quiet_inputs _ _ _))) fun inputs => ?_
  refine Step.keeps_bind (Session.keeps_count _) fun _ => ?_
  exact Session.keeps_inWorld (h.keeps_verify (hC inputs))

/-- What is done for a source within its workspace keeps what lasts there. -/
theorem Lasts.keeps_examine (h : Lasts P C dir) {p : Plan} {number : Nat} {source : Path}
    (hsplit : Keeps P (p.split number source dir))
    (hC : ∀ inputs, Verification.AllCommands C ⟨source, inputs⟩ p.compiler p.comparator dir) :
    Keeps (fun s : Session => P s.world) (p.examine number source dir) := by
  rw [Plan.examine_eq]
  refine Step.keeps_bind (Session.keeps_note _) fun _ => ?_
  exact Step.keeps_bind (Session.keeps_inWorld hsplit) (h.keeps_afterSplit hC)

/-- What never takes a start back, in a session. -/
def Session.Grows {α : Type} (x : Action Session α) : Prop :=
  ∀ n, Keeps (fun s => n ≤ s.world.spawns.length) x

namespace Session

variable {α β : Type}

theorem grows_pure (a : α) : Session.Grows (pure a) := fun _ => Step.keeps_pure a

theorem grows_bind {x : Action Session β} {f : β → Action Session α} (hx : Session.Grows x)
    (hf : ∀ b, Session.Grows (f b)) : Session.Grows (x >>= f) :=
  fun n => Step.keeps_bind (hx n) fun b => hf b n

theorem grows_inWorld {x : Action World α} (hx : RoundTrip.Grows x) :
    Session.Grows (inWorld x) := fun n => keeps_inWorld (hx n)

/-- What is quiet starts nothing, so it takes no start back. -/
theorem grows_quiet {x : Action World α} (hx : Quiet x) : Session.Grows (inWorld x) :=
  grows_inWorld fun n => (lasts_grows n ⟨.here, []⟩).quiet hx

theorem grows_note (e : Event) : Session.Grows (note e) :=
  fun n => keeps_note (P := fun w => n ≤ w.spawns.length) e

theorem grows_count (f : Tally → Tally) : Session.Grows (count f) :=
  fun n => keeps_count (P := fun w => n ≤ w.spawns.length) f

end Session

namespace Plan

variable {p : Plan}

/-- How a case ends: without a workspace, with a number used up only, or with its workspace
    left after the examination in there, and after that nothing but counting. -/
theorem endState_tryCase {number : Nat} {source : Path} {s : Session}
    (hquiet : ∀ {α : Type} {x : Action World α}, Quiet x → Keeps P x)
    (hnone : ∀ count, P { s.world with workspaceCount := count })
    (hcase : ∀ (n count : Nat) (d : Disk) (stderr : String),
      (Workspace.numbered s.world.tempDir n).holdsNul = false →
      s.world.disk.makeDir s.world.cwd (Workspace.numbered s.world.tempDir n) = .ok d →
      P (Step.endState (Workspace.leave (Workspace.numbered s.world.tempDir n)
        (Step.endState (p.examine number source (Workspace.numbered s.world.tempDir n)
          ⟨{ s.world with disk := d, workspaceCount := count, stderr := stderr }, s.tally,
            s.journal⟩)).world))) :
    P (Step.endState (p.tryCase number source s)).world := by
  unfold tryCase
  obtain ⟨e, count, henter⟩ | ⟨n, count, d, stderr, hnul, hmake, henter⟩ := enter_apply s.world
  · rw [Step.bind_error (Session.inWorld_of_error henter)]
    exact hnone count
  · rw [Step.bind_ok (Session.inWorld_of_ok henter)]
    -- the examination and the leaving come first; what is done after them keeps the property
    refine Step.endState_bind_of (P := fun s' : Session => P s'.world) ?_ fun r => ?_
    · rw [Step.endState_ensuring, Session.endState_inWorld]
      exact hcase n count d stderr hnul hmake
    · refine Step.keeps_bind (Session.keeps_count _) fun _ => ?_
      refine Step.keeps_bind (Session.keeps_inWorld (hquiet (quiet_log _ _))) fun _ => ?_
      exact Step.keeps_pure r

/-- A case keeps what is kept by the examination and by entering and leaving the
    workspace. -/
theorem keeps_tryCase {number : Nat} {source : Path}
    (hquiet : ∀ {α : Type} {x : Action World α}, Quiet x → Keeps P x)
    (hcount : ∀ (w : World) (count : Nat), P w → P { w with workspaceCount := count })
    (hmake : ∀ (w : World) (dir : Path) (count : Nat) (d : Disk) (stderr : String),
      P w → w.disk.makeDir w.cwd dir = .ok d →
        P { w with disk := d, workspaceCount := count, stderr := stderr })
    (hexamine : ∀ dir, Keeps (fun s : Session => P s.world) (p.examine number source dir))
    (hleave : ∀ dir, Keeps P (Workspace.leave dir)) :
    Keeps (fun s : Session => P s.world) (p.tryCase number source) := by
  intro s hs
  refine endState_tryCase hquiet (fun count => hcount _ count hs) fun n count d stderr _ hd => ?_
  exact hleave _ _ (hexamine _ _ (hmake _ _ count d stderr hs hd))

/-- What happens before and after a case is quiet. -/
structure QuietHooks (p : Plan) : Prop where
  onStart : ∀ source, Quiet (p.onStart source)
  onResult : ∀ r, Quiet (p.onResult r)

/-- How a case ends, with what happens before and after it: what holds before the case is
    kept up to it, and what holds then is kept to the end. -/
theorem endState_step {R : World → Prop} {number : Nat} {source : Path} {s : Session}
    (hbefore : ∀ {α : Type} {x : Action World α}, Quiet x → Keeps R x)
    (hquiet : ∀ {α : Type} {x : Action World α}, Quiet x → Keeps P x) (hooks : p.QuietHooks)
    (hnone : ∀ w, R w → P w)
    (hcase : ∀ s₁ : Session, R s₁.world → P (Step.endState (p.tryCase number source s₁)).world)
    (hs : R s.world) : P (Step.endState (p.step number source s)).world := by
  obtain ⟨s₁, hnote, hworld⟩ : ∃ s₁, Session.note (.started source) s = .ok () s₁
      ∧ s₁.world = s.world := ⟨_, rfl, rfl⟩
  have hstarted := hbefore (hooks.onStart source) s₁.world (hworld ▸ hs)
  unfold step
  rw [Step.bind_ok hnote]
  -- a case whose first hook fails is not taken up
  cases hstart : p.onStart source s₁.world with
  | error e w =>
      rw [hstart] at hstarted
      rw [Step.bind_error (Session.inWorld_of_error hstart)]
      exact hnone w hstarted
  | ok u w =>
      rw [hstart] at hstarted
      rw [Step.bind_ok (Session.inWorld_of_ok hstart)]
      refine Step.endState_bind_of (P := fun s' : Session => P s'.world) (hcase _ hstarted)
        fun r => ?_
      refine Step.keeps_bind Step.keeps_get fun s => ?_
      refine Step.keeps_bind (Session.keeps_note _) fun _ => ?_
      refine Step.keeps_bind (Session.keeps_inWorld (hquiet (hooks.onResult r))) fun _ => ?_
      exact Step.keeps_pure r

/-- A case with its hooks keeps what both keep. -/
theorem keeps_step (hquiet : ∀ {α : Type} {x : Action World α}, Quiet x → Keeps P x)
    (hooks : p.QuietHooks) {number : Nat} {source : Path}
    (hcase : Keeps (fun s : Session => P s.world) (p.tryCase number source)) :
    Keeps (fun s : Session => P s.world) (p.step number source) :=
  fun _ hs => endState_step hquiet hquiet hooks (fun _ h => h) hcase hs

/-- A run keeps what its cases keep, by induction on the sources. -/
theorem keeps_runFrom (hquiet : ∀ {α : Type} {x : Action World α}, Quiet x → Keeps P x)
    (hooks : p.QuietHooks)
    (hcase : ∀ number source, Keeps (fun s : Session => P s.world) (p.tryCase number source))
    (number : Nat) (sources : List Path) :
    Keeps (fun s : Session => P s.world) (p.runFrom number sources) := by
  induction sources generalizing number with
  | nil => exact Step.keeps_pure ()
  | cons source rest ih =>
      rw [runFrom]
      refine Step.keeps_bind (keeps_step hquiet hooks (hcase number source)) fun r => ?_
      split
      · exact Session.keeps_inWorld (hquiet (quiet_log _ _))
      · exact ih (number + 1)

/-- **What every case keeps is kept by the run.** -/
theorem keeps_run (hquiet : ∀ {α : Type} {x : Action World α}, Quiet x → Keeps P x)
    (hooks : p.QuietHooks)
    (hcase : ∀ number source, Keeps (fun s : Session => P s.world) (p.tryCase number source))
    (sources : List Path) : Keeps (fun s : Session => P s.world) (p.run sources) :=
  keeps_runFrom hquiet hooks hcase 0 sources

end Plan

/-- The plan of the round-trip test only prints before and after a case. -/
theorem Harness.quietHooks_plan (s : Configuration) (o : Options) : (plan s o).QuietHooks :=
  ⟨fun source => (prints_tick source).quiet, fun r => (prints_announce r).quiet⟩

end RoundTrip
