import RoundTrip.Proofs.Agreement
import RoundTrip.Proofs.Walk
import RoundTrip.Proofs.Workspace

/-! # A run leaves the disk as it was

    A case may end in a verdict or in any fault; in either way its workspace is
    removed, and with it all that the case has left.  `Since` says what has become of
    a world since an earlier one, as far as the processes that were started in between
    kept their effects below their directories.  It is kept by everything that happens
    in a workspace, and a case as a whole restores the disk (`Since.tryCase`), so by
    induction a run does: **`Plan.run_restores_disk`**. -/

namespace RoundTrip

open Step (Keeps endState outcome)

/-- The processes that were started in these directories, by the entries of the
    script in order, keep their effects below them. -/
def Tame (cwd : Path) : List Process → List Path → Prop
  | _, [] => True
  | script, dir :: rest =>
      (∀ e ∈ (script.headD .idle).effects, e.StaysBelow (cwd / dir)) ∧ Tame cwd script.tail rest

/-- A script that is tame over two stretches of directories is so over the first, and what is
    left of it over the second. -/
theorem tame_append {cwd : Path} {script : List Process} {dirs rest : List Path} :
    Tame cwd script (dirs ++ rest)
      ↔ Tame cwd script dirs ∧ Tame cwd (script.drop dirs.length) rest := by
  induction dirs generalizing script with
  | nil => simp [Tame]
  | cons dir dirs ih =>
      rw [List.cons_append, Tame, Tame, ih, List.drop_tail, and_assoc]
      rfl

/-- What has become of a world: processes may have been started, by the next entries
    of the script, and if they were tame, the disk has a property. -/
structure Since (w₀ : World) (D : Disk → Prop) (w : World) : Prop where
  cwd_eq : w.cwd = w₀.cwd
  tempDir_eq : w.tempDir = w₀.tempDir
  started : ∃ started, w.spawns = w₀.spawns ++ started
    ∧ w.script = w₀.script.drop started.length
    ∧ (Tame w₀.cwd w₀.script (started.map Spawn.cwd) → D w.disk)

namespace Since

variable {w₀ w w' : World} {D D' : Disk → Prop} {α : Type}

/-- At the start nothing has been started since. -/
theorem start (h : D w.disk) : Since w D w :=
  ⟨rfl, rfl, [], by simp, rfl, fun _ => h⟩

/-- Where no process is started, only the disk matters. -/
theorem of_record (h : Since w₀ D w) (hrecord : w'.record = w.record)
    (hdisk : D w.disk → D' w'.disk) : Since w₀ D' w' := by
  obtain ⟨hcwd, htemp, started, hspawns, hscript, hD⟩ := h
  simp only [World.record, Prod.mk.injEq] at hrecord
  obtain ⟨hcwd', htemp', hscript', hspawns'⟩ := hrecord
  exact ⟨hcwd'.trans hcwd, htemp'.trans htemp, started, hspawns'.trans hspawns,
    hscript'.trans hscript, fun htame => hdisk (hD htame)⟩

/-- What starts nothing needs to be followed on the disk only. -/
theorem startsNothing {x : Action World α} (h : Since w₀ D w) (hx : StartsNothing x)
    (hdisk : D w.disk → D' (endState (x w)).disk) : Since w₀ D' (endState (x w)) :=
  h.of_record (hx w.record w rfl) hdisk

/-- What is quiet needs not to be followed at all. -/
theorem keeps_quiet {x : Action World α} (hx : Quiet x) : Keeps (Since w₀ D) x :=
  hx.keeps fun _ _ hdisk hrecord h => h.of_record hrecord (by rw [hdisk]; exact id)

/-- A command starts one process, and if that is tame too, its effects are all that
    may have become of the disk. -/
theorem run (h : Since w₀ D w) (c : Command)
    (heffects : ∀ es : List Effect, (∀ e ∈ es, e.StaysBelow (w₀.cwd / c.cwd)) →
      Keeps D (Effect.applyAll (w₀.cwd / c.cwd) es)) :
    Since w₀ D (endState (c.run w)) := by
  obtain ⟨hcwd, htemp, started, hspawns, hscript, hD⟩ := h
  have hran := Command.ran_run c w
  obtain ⟨limit, killed, hstart⟩ := hran.spawns_eq
  refine ⟨hran.cwd_eq.trans hcwd, hran.tempDir_eq.trans htemp,
    started ++ [c.spawn w limit killed], ?_, ?_, fun htame => ?_⟩
  · rw [hstart, hspawns, List.append_assoc]
  · rw [hran.script_eq, hscript, List.length_append, List.length_singleton, List.tail_drop]
  · rw [List.map_append, tame_append, List.length_map, ← hscript] at htame
    obtain ⟨hbefore, hnow, -⟩ := htame
    obtain hdisk | hdisk := hran.disk
    · rw [hdisk]
      exact hD hbefore
    · rw [hdisk, hcwd]
      exact heffects _ hnow _ (hD hbefore)

/-- What has become of a world in two stretches. -/
theorem trans {w₁ w₂ : World} {D'' : Disk → Prop} (h : Since w₀ D w₁) (h' : Since w₁ D' w₂)
    (hdisk : D w₁.disk → D' w₂.disk → D'' w₂.disk) : Since w₀ D'' w₂ := by
  obtain ⟨hcwd, htemp, started, hspawns, hscript, hD⟩ := h
  obtain ⟨hcwd', htemp', started', hspawns', hscript', hD'⟩ := h'
  refine ⟨hcwd'.trans hcwd, htemp'.trans htemp, started ++ started', ?_, ?_, fun htame => ?_⟩
  · rw [hspawns', hspawns, List.append_assoc]
  · rw [hscript', hscript, List.drop_drop, List.length_append]
  · rw [List.map_append, tame_append, List.length_map, ← hscript, ← hcwd] at htame
    rw [hcwd] at htame
    exact hdisk (hD htame.1) (hD' (hcwd ▸ htame.2))

end Since

/-- All is as it was, if everything stood in a directory. -/
def Disk.Restored (d₀ d : Disk) : Prop := d₀.Closed → ∀ q, d.get? q = d₀.get? q

/-- A disk that was restored twice is restored. -/
theorem Disk.Restored.trans {d₀ d₁ d₂ : Disk} (h : d₀.Restored d₁) (h' : d₁.Restored d₂) :
    d₀.Restored d₂ :=
  fun hclosed q => (h' (hclosed.congr (h hclosed)) q).trans (h hclosed q)

/-! ## One case -/

namespace Since

variable {p : Plan} {splitter : Path} {limit : Option Number}

/-- Within a workspace that was made at a site, what a case does stays in there. -/
theorem lasts {w₀ : World} {dir : Path} {place : Place}
    (hsite : w₀.disk.Closed → Site w₀.disk w₀.cwd dir place) :
    Lasts (Since w₀ fun d => w₀.disk.Closed → Confined (w₀.disk.put place .dir) place d)
      (fun c => c.cwd = dir) dir where
  quiet := keeps_quiet
  run := by
    intro c hc w h
    subst hc
    exact h.run c fun es hes d hd hclosed => (hsite hclosed).effects hes d (hd hclosed)
  store := fun a content w h => h.startsNothing (startsNothing_store _ _) fun hd hclosed =>
    (hsite hclosed).store h.cwd_eq (hd hclosed) a content
  remove := fun a w h => h.startsNothing (startsNothing_removeIfPresent _) fun hd hclosed =>
    (hsite hclosed).removeIfPresent h.cwd_eq (hd hclosed) a

/-- **A case restores the disk**, whichever way it ends. -/
theorem tryCase (hsplit : ∀ n, p.split n = Splitter.split splitter limit) (number : Nat)
    (source : Path) (s : Session) (hcwd : ".." ∉ s.world.cwd.names)
    (htemp : ".." ∉ (Path.ofString s.world.tempDir.text).names) :
    Since s.world s.world.disk.Restored (endState (p.tryCase number source s)).world := by
  refine Plan.endState_tryCase keeps_quiet
    (fun count => (start fun _ _ => rfl).of_record rfl id) ?_
  intro n count d stderr hnul hmake
  generalize hdir : Workspace.numbered s.world.tempDir n = dir at hnul hmake
  obtain ⟨place, hfind, hnone, rfl⟩ := Disk.makeDir_eq_ok hmake
  have hsite : s.world.disk.Closed → Site s.world.disk s.world.cwd dir place :=
    fun hclosed => .of_create hclosed hcwd htemp hdir hnul hfind hnone
  -- the examination changes the workspace only, and then that is removed
  have hlasts := lasts hsite
  have hkeeps : Keeps (fun s' : Session => Since s.world (fun d => s.world.disk.Closed →
      Confined (s.world.disk.put place .dir) place d) s'.world) (p.examine number source dir) := by
    refine hlasts.keeps_examine ?_ fun inputs => Verification.allCommands_cwd _ _ _ _
    rw [hsplit]
    exact hlasts.keeps_split rfl
  have hmade : Since s.world (fun d => s.world.disk.Closed →
      Confined (s.world.disk.put place .dir) place d)
      { s.world with
        disk := s.world.disk.put place .dir
        workspaceCount := count
        stderr := stderr } :=
    (start (D := fun _ => True) trivial).of_record rfl fun _ hclosed =>
      .refl (hsite hclosed).linkFree
  have hexamine := hkeeps ⟨_, s.tally, s.journal⟩ hmade
  refine hexamine.startsNothing (startsNothing_leave dir) fun hd hclosed q => ?_
  rw [disk_leave, hexamine.cwd_eq]
  exact (hsite hclosed).get?_removeTree (hd hclosed) q

end Since

/-! ## A run -/

/-- What has become of a world since a run began. -/
theorem Plan.since_run {p : Plan} {splitter : Path} {limit : Option Number}
    (hsplit : ∀ n, p.split n = Splitter.split splitter limit) (hooks : p.QuietHooks)
    (sources : List Path) (s : Session) (hcwd : ".." ∉ s.world.cwd.names)
    (htemp : ".." ∉ (Path.ofString s.world.tempDir.text).names) :
    Since s.world s.world.disk.Restored (endState (p.run sources s)).world := by
  have hcase : ∀ number source, Keeps
      (fun s' : Session => Since s.world s.world.disk.Restored s'.world)
      (p.tryCase number source) := by
    intro number source s' h
    refine h.trans (Since.tryCase hsplit number source s' ?_ ?_) Disk.Restored.trans
    · rw [h.cwd_eq]
      exact hcwd
    · rw [h.tempDir_eq]
      exact htemp
  exact p.keeps_run Since.keeps_quiet hooks hcase sources s (Since.start fun _ _ => rfl)

/-- **A run leaves the disk as it was**, whichever way it ends: where everything
    stands in a directory, the directories a run works from are given without `..`,
    and the processes keep their effects below their directories, every place is as
    it was before.

    What is asked of the current directory and of the directory of workspaces holds in every
    scenario, and so does what is asked of the disk (`Scenario.settled_world`). -/
theorem Plan.run_restores_disk {p : Plan} {splitter : Path} {limit : Option Number}
    (hsplit : ∀ n, p.split n = Splitter.split splitter limit) (hooks : p.QuietHooks)
    (sources : List Path) (s : Session) (hclosed : s.world.disk.Closed)
    (hcwd : ".." ∉ s.world.cwd.names)
    (htemp : ".." ∉ (Path.ofString s.world.tempDir.text).names)
    (htame : ∀ started, (endState (p.run sources s)).world.spawns = s.world.spawns ++ started →
      Tame s.world.cwd s.world.script (started.map Spawn.cwd)) :
    ∀ q, (endState (p.run sources s)).world.disk.get? q = s.world.disk.get? q := by
  obtain ⟨-, -, started, hspawns, -, hdisk⟩ := p.since_run hsplit hooks sources s hcwd htemp
  exact hdisk (htame started hspawns) hclosed

namespace Harness.Trial

/-- A splitter with nothing to take apart, and a compiler that puts a directory where
    its document is to be written. -/
def blocking : List Process :=
  [{ Process.idle with exitCode := 1 },
    { Process.idle with effects := [.write ⟨.here, ["out", "a.bin"]⟩ []] },
    { Process.idle with effects := [.makeDir ⟨.here, ["expected.json"]⟩] }]

def blocked : Session :=
  .start { world with tempDir := ⟨.root, ["build"]⟩, script := blocking } (.start 1 false)

def sources : List Path := [⟨.root, ["t", "a.sol"]⟩]

def workspace : Path := ⟨.root, ["build", "ast-import-0"]⟩

/-- The three processes of the run are started from its workspace. -/
theorem directories_blocked :
    (endState ((plan configuration options).run sources blocked)).world.spawns.map Spawn.cwd
      = [workspace, workspace, workspace] := by decide +kernel

/-- They are tame there, though one of them blocks the removal of an artifact. -/
theorem tame_blocking :
    Tame blocked.world.cwd blocked.world.script [workspace, workspace, workspace] := by
  refine ⟨fun e he => (nomatch he), fun e he => ?_, fun e he => ?_, trivial⟩
  · obtain rfl := List.mem_singleton.mp he
    exact ⟨rfl, "out", ["a.bin"], by decide, by decide⟩
  · obtain rfl := List.mem_singleton.mp he
    exact ⟨rfl, "expected.json", [], by decide, by decide⟩

end Harness.Trial

open Harness in
/-- A case whose clean-up fails restores the disk, too. -/
theorem Plan.blocked_run_restores_disk :
    (match outcome ((plan Trial.configuration Trial.options).run Trial.sources Trial.blocked) with
      | .error (.path (.os e)) => decide (e.cause = .isDirectory)
      | _ => false) = true
      ∧ ∀ q, (endState ((plan Trial.configuration Trial.options).run Trial.sources
          Trial.blocked)).world.disk.get? q = Trial.blocked.world.disk.get? q := by
  refine ⟨by decide +kernel, ?_⟩
  refine Plan.run_restores_disk (fun _ => rfl) (quietHooks_plan _ _) Trial.sources Trial.blocked
    ?_ ?_ ?_ fun started h => ?_
  · exact .of_places (by decide)
  · decide
  · decide
  · have hstarted : (endState ((plan Trial.configuration Trial.options).run Trial.sources
        Trial.blocked)).world.spawns = started := h
    rw [← hstarted, Trial.directories_blocked]
    exact Trial.tame_blocking

end RoundTrip
