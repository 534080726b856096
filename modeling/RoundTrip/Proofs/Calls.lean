import RoundTrip.Proofs.Walk

/-! # The calls of a run

    Every process that a run starts is a call of the compiler, of the splitter or of
    the comparison, from the directory of the compiler or from a workspace
    (`Harness.IsCall`).  The files of the first two are checked before they are called
    (`Tool.Checked`).

    `Calls` says of all starts since an earlier world that they are of some commands.
    It is kept by whatever only runs such commands, so by a case and by the cases of a
    run (`Calls.keeps_run`); with what the checks of the setup start and find, a run
    makes no other calls: **`Harness.calls_run`**. -/

namespace RoundTrip

open Step (Keeps endState)

/-- A process was started by a command, however that went. -/
def Spawn.Of (c : Command) (k : Spawn) : Prop := ∃ w limit killed, k = c.spawn w limit killed

theorem Spawn.Of.argv_eq {c : Command} {k : Spawn} (h : k.Of c) : k.argv = c.argv := by
  obtain ⟨_, _, _, rfl⟩ := h
  rfl

/-- All processes that were started since an earlier world are calls of some commands. -/
structure Calls (C : Command → Prop) (w₀ w : World) : Prop where
  cwd_eq : w.cwd = w₀.cwd
  tempDir_eq : w.tempDir = w₀.tempDir
  started : ∃ started, w.spawns = w₀.spawns ++ started ∧ ∀ k ∈ started, ∃ c, C c ∧ k.Of c

namespace Calls

variable {C C' : Command → Prop} {w₀ w w' : World} {α : Type}

theorem refl (C : Command → Prop) (w : World) : Calls C w w :=
  ⟨rfl, rfl, [], by simp, fun _ hk => nomatch hk⟩

/-- More calls may be allowed. -/
theorem mono (h : Calls C w₀ w) (hC : ∀ c, C c → C' c) : Calls C' w₀ w := by
  obtain ⟨hcwd, htemp, started, hspawns, hcalls⟩ := h
  refine ⟨hcwd, htemp, started, hspawns, ?_⟩
  intro k hk
  obtain ⟨c, hc, hof⟩ := hcalls k hk
  exact ⟨c, hC c hc, hof⟩

/-- What does not change the record makes no call. -/
theorem of_record (h : Calls C w₀ w) (hrecord : w'.record = w.record) : Calls C w₀ w' := by
  simp only [World.record, Prod.mk.injEq] at hrecord
  obtain ⟨hcwd, htemp, -, hspawns⟩ := hrecord
  exact ⟨hcwd.trans h.cwd_eq, htemp.trans h.tempDir_eq, hspawns ▸ h.started⟩

theorem keeps_startsNothing {x : Action World α} (hx : StartsNothing x) : Keeps (Calls C w₀) x :=
  hx.keeps fun _ _ hrecord h => h.of_record hrecord

theorem keeps_quiet {x : Action World α} (hx : Quiet x) : Keeps (Calls C w₀) x :=
  keeps_startsNothing hx.startsNothing

/-- One of the commands may be run. -/
theorem of_ran {c : Command} (h : Calls C w₀ w) (hc : C c) (hran : World.Ran c w w') :
    Calls C w₀ w' := by
  obtain ⟨hcwd, htemp, started, hspawns, hcalls⟩ := h
  obtain ⟨limit, killed, hstart⟩ := hran.spawns_eq
  refine ⟨hran.cwd_eq.trans hcwd, hran.tempDir_eq.trans htemp,
    started ++ [c.spawn w limit killed], ?_, ?_⟩
  · rw [hstart, hspawns, List.append_assoc]
  · intro k hk
    rcases List.mem_append.mp hk with hk | hk
    · exact hcalls k hk
    · exact ⟨c, hc, w, limit, killed, List.mem_singleton.mp hk⟩

/-- A command that is allowed is one more call. -/
theorem keeps_command {c : Command} (hc : C c) : Keeps (Calls C w₀) c.run :=
  fun w h => h.of_ran hc (Command.ran_run c w)

/-- The calls of a case are allowed if its commands are. -/
theorem lasts (C : Command → Prop) (w₀ : World) (dir : Path) : Lasts (Calls C w₀) C dir :=
  .of_record (fun _ _ hrecord h => h.of_record hrecord) fun _ hc => keeps_command hc

/-! ## Cases -/

variable {p : Plan} {splitter : Path} {limit : Option Number}

/-- A case splits its source in a workspace and verifies it there. -/
theorem keeps_tryCase (hsplit : ∀ n, p.split n = Splitter.split splitter limit)
    (hsplitter : ∀ n source,
      C (Splitter.command splitter source (Workspace.numbered w₀.tempDir n) limit))
    (hverify : ∀ n c, Verification.AllCommands C c p.compiler p.comparator
      (Workspace.numbered w₀.tempDir n)) (number : Nat) (source : Path) :
    Keeps (fun s : Session => Calls C w₀ s.world) (p.tryCase number source) := by
  intro s h
  refine Plan.endState_tryCase keeps_quiet (fun count => h.of_record rfl) ?_
  intro n count d stderr _ _
  rw [h.tempDir_eq]
  have hlasts := lasts C w₀ (Workspace.numbered w₀.tempDir n)
  have hexamine : Keeps (fun s : Session => Calls C w₀ s.world)
      (p.examine number source (Workspace.numbered w₀.tempDir n)) := by
    refine hlasts.keeps_examine ?_ fun inputs => hverify n _
    rw [hsplit]
    exact hlasts.keeps_split (hsplitter n source)
  exact keeps_startsNothing (startsNothing_leave _) _ (hexamine _ (h.of_record rfl))

/-- The cases of a run make the calls of a case, each in a workspace. -/
theorem keeps_run (hooks : p.QuietHooks)
    (hsplit : ∀ n, p.split n = Splitter.split splitter limit)
    (hsplitter : ∀ n source,
      C (Splitter.command splitter source (Workspace.numbered w₀.tempDir n) limit))
    (hverify : ∀ n c, Verification.AllCommands C c p.compiler p.comparator
      (Workspace.numbered w₀.tempDir n)) (sources : List Path) :
    Keeps (fun s : Session => Calls C w₀ s.world) (p.run sources) :=
  p.keeps_run keeps_quiet hooks (keeps_tryCase hsplit hsplitter hverify) sources

end Calls

/-! ## A run -/

/-- A tool whose file is checked before it is called. -/
inductive Tool where
  | compiler
  | splitter
  deriving DecidableEq, Repr

/-- Where a configuration has a tool. -/
def Tool.path (s : Configuration) : Tool → Path
  | .compiler => s.compilerPath
  | .splitter => s.splitter

namespace Harness

variable {s : Configuration} {o : Options} {w w₁ : World}

/-- The world when a tool is checked: the compiler is checked first, and the splitter
    once the compiler has told its version. -/
def atCheck (s : Configuration) (o : Options) (w : World) : Tool → World
  | .compiler => w
  | .splitter => endState ((compiler s o).identify w)

/-- A run from this world finds a file where the configuration has the tool. -/
def Checked (s : Configuration) (o : Options) (w : World) (t : Tool) : Prop :=
  (atCheck s o w t).disk.isFile (atCheck s o w t).cwd (t.path s) = .ok true

/-- The calls of a run, with the tool that is called.  Comparisons call none of the two
    that are checked. -/
inductive IsCall (s : Configuration) (o : Options) (temp : Path) : Option Tool → Command → Prop
  | version : IsCall s o temp (some .compiler) (compiler s o).version
  | split (n : Nat) (source : Path) : IsCall s o temp (some .splitter)
      (Splitter.command s.splitter source (Workspace.numbered temp n) s.limit)
  | probe (n : Nat) (inputs : List Path) : IsCall s o temp (some .compiler)
      ((compiler s o).probe inputs (Workspace.numbered temp n))
  | exportDocument (n : Nat) (inputs : List Path) : IsCall s o temp (some .compiler)
      ((compiler s o).exportDocument inputs (Workspace.numbered temp n))
  | importDocument (n : Nat) : IsCall s o temp (some .compiler)
      ((compiler s o).importDocument (Path.ofString Artifact.expected.name)
        (Workspace.numbered temp n))
  | compare (n : Nat) (words : List String)
      (hwords : Text.ShellWords.split s.diffCommand = .ok words) :
      IsCall s o temp none
        (Verification.comparison ⟨s.diffCommand, s.limit⟩ words (Workspace.numbered temp n))

/-- A command is a call of a run that starts in this world, and the tool that it calls is
    checked before. -/
def Allowed (s : Configuration) (o : Options) (w : World) (c : Command) : Prop :=
  ∃ t, IsCall s o w.tempDir t c ∧ ∀ tool ∈ t, Checked s o w tool

/-- The compiler is called for its version once its file was found; otherwise nothing
    happens. -/
theorem identify_cases (s : Configuration) (o : Options) (w : World) :
    (∃ e, (compiler s o).identify w = .error e w)
      ∨ Checked s o w .compiler
        ∧ endState ((compiler s o).identify w) = endState ((compiler s o).version.run w) := by
  unfold Checked atCheck Compiler.identify
  rw [Step.bind_ok (Step.get_apply w)]
  show _ ∨ w.disk.isFile w.cwd s.compilerPath = .ok true ∧ _
  cases hfile : w.disk.isFile w.cwd (compiler s o).path with
  | error e => exact Or.inl ⟨_, rfl⟩
  | ok isThere =>
      cases isThere with
      | false => exact Or.inl ⟨_, rfl⟩
      | true =>
          refine Or.inr ⟨hfile, ?_⟩
          have hthere : (Step.ofExcept Fault.path (.ok true) : Action World Bool) w
              = .ok true w := rfl
          rw [Step.bind_ok hthere, if_pos rfl]
          -- whatever the version is, nothing happens after the call
          refine Step.endState_bind_of
            (P := fun w' => w' = endState ((compiler s o).version.run w)) ?_ fun i => ?_
          · rw [Step.endState_rethrow]
          · split
            · exact Step.keeps_pure _
            · exact Step.keeps_throw _

/-- After the compiler was asked for its version, the checks of the setup are quiet. -/
theorem endState_prepare {P : World → Prop} {w : World} (s : Configuration) (o : Options)
    (hquiet : ∀ {α : Type} {x : Action World α}, Quiet x → Keeps P x)
    (h : P (endState ((compiler s o).identify w))) : P (endState (prepare s o w)) := by
  refine Step.endState_bind_of h fun version => hquiet ?_
  refine quiet_bind (quiet_log _ _) fun _ => quiet_bind quiet_get fun w' => ?_
  refine quiet_bind (quiet_ofExcept _ _) fun hasSplitter => ?_
  split
  · exact quiet_bind (quiet_findSources _ _) fun _ =>
      quiet_bind (prints_printLine _).quiet fun _ => quiet_pure _
  · exact quiet_throw _

/-- After the version was told the setup starts nothing. -/
theorem record_prepare (s : Configuration) (o : Options) (w : World) :
    (endState (prepare s o w)).record = (endState ((compiler s o).identify w)).record :=
  endState_prepare
    (P := fun w' => w'.record = (endState ((compiler s o).identify w)).record) s o
    (fun hx => hx.startsNothing.keeps fun _ _ hrecord h => hrecord.trans h) rfl

/-- The checks of the setup start nothing but the compiler, for its version. -/
theorem calls_prepare (s : Configuration) (o : Options) (w : World) :
    Calls (fun c => c = (compiler s o).version ∧ Checked s o w .compiler) w
      (endState (prepare s o w)) := by
  refine Calls.of_record ?_ (record_prepare s o w)
  obtain ⟨e, hidentify⟩ | ⟨hchecked, hend⟩ := identify_cases s o w
  · rw [hidentify]
    exact Calls.refl _ w
  · rw [hend]
    exact (Calls.refl _ w).of_ran ⟨rfl, hchecked⟩ (Command.ran_run _ w)

/-- Where the setup is in order, both tools have been checked. -/
theorem checked_of_prepare_eq_ok {sources : List Path} (h : prepare s o w = .ok sources w₁)
    (t : Tool) : Checked s o w t := by
  unfold prepare at h
  obtain ⟨version, w₂, hidentify, h⟩ := Step.bind_eq_ok_iff.mp h
  obtain ⟨e, herror⟩ | ⟨hchecked, -⟩ := identify_cases s o w
  · rw [herror] at hidentify
    cases hidentify
  cases t with
  | compiler => exact hchecked
  | splitter =>
      obtain ⟨stderr, hlog⟩ := World.log_apply .harness
        ("compiler " ++ s.compilerPath.text ++ ": " ++ version) w₂
      rw [Step.bind_ok hlog, Step.bind_ok (Step.get_apply _)] at h
      obtain ⟨hasSplitter, w₃, hfile, h⟩ := Step.bind_eq_ok_iff.mp h
      obtain ⟨hfile, -⟩ := Step.of_ofExcept_eq_ok hfile
      cases hasSplitter with
      | false => cases h
      | true =>
          unfold Checked atCheck
          rw [hidentify]
          exact hfile

/-- The end of a run starts nothing. -/
theorem startsNothing_conclude (s : Configuration) (o : Options) (t : Tally) :
    StartsNothing (conclude s o t) := by
  refine startsNothing_bind (prints_announceSummary t).quiet.startsNothing fun _ => ?_
  split
  · exact startsNothing_storeDocument _ _
  · exact (quiet_pure _).startsNothing

/-- **The calls of a run**: whichever way it ends, it has called the two tools after
    their files were found, and otherwise comparisons only. -/
theorem calls_run (s : Configuration) (o : Options) (s₀ : Session) :
    Calls (Allowed s o s₀.world) s₀.world (endState (run s o s₀)).world := by
  have hsetup : Calls (Allowed s o s₀.world) s₀.world (endState (prepare s o s₀.world)) := by
    refine (calls_prepare s o s₀.world).mono ?_
    rintro c ⟨rfl, hchecked⟩
    refine ⟨_, .version, ?_⟩
    rintro tool ⟨⟩
    exact hchecked
  unfold run
  cases hprepare : prepare s o s₀.world with
  | error e w₁ =>
      rw [hprepare] at hsetup
      rw [Step.bind_error (Session.inWorld_of_error hprepare)]
      exact hsetup
  | ok sources w₁ =>
      rw [hprepare] at hsetup
      rw [Step.bind_ok (Session.inWorld_of_ok hprepare)]
      -- the setup has checked the tools, and from here on they may be called
      have hchecked := checked_of_prepare_eq_ok hprepare
      have hallowed : ∀ {t : Option Tool} {c : Command}, IsCall s o s₀.world.tempDir t c →
          Allowed s o s₀.world c := fun hcall => ⟨_, hcall, fun tool _ => hchecked tool⟩
      have hcases : Keeps (fun s' : Session => Calls (Allowed s o s₀.world) s₀.world s'.world)
          ((plan s o).run sources) :=
        Calls.keeps_run (quietHooks_plan s o) (fun _ => rfl)
          (fun n source => hallowed (.split n source))
          (fun n c => ⟨hallowed (.probe n c.inputs), hallowed (.exportDocument n c.inputs),
            hallowed (.importDocument n), fun words h => hallowed (.compare n words h)⟩) sources
      refine Step.keeps_bind (Session.keeps_count _) (fun _ => ?_) { s₀ with world := w₁ } hsetup
      refine Step.keeps_bind hcases fun _ => ?_
      refine Step.keeps_bind Step.keeps_get fun s₁ => ?_
      refine Step.keeps_bind ?_ fun _ => Step.keeps_pure _
      exact Session.keeps_inWorld (Calls.keeps_startsNothing (startsNothing_conclude s o _))

end Harness

end RoundTrip
