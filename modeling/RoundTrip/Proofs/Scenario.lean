import RoundTrip.Scenario
import RoundTrip.Proofs.Restoration
import RoundTrip.Proofs.Streams

/-! # The worlds of scenarios

    The directory of workspaces is made first, and the entries of a scenario never take a
    directory away.  So the world of every scenario is settled (`Scenario.settled_world`),
    and plain unless a process is going to make a link: **`Scenario.plain_world`**.

    With this, what is proved of runs in settled and in plain worlds is true of runs in
    scenarios: they leave the disk as it was (`Scenario.disk_after_run`), and they do not
    depend on streams that nothing follows from (`Scenario.endAlike_of_script`). -/

namespace RoundTrip

open Step (EndAlike Keeps endState)

namespace Disk

variable {d d' : Disk} {cwd path : Path} {p q : Place}

/-- A node that is put elsewhere, or over no directory, leaves a directory where it is. -/
theorem dir_put {node : Node} (h : d.get? q = some .dir) (hp : d.get? p ≠ some .dir) :
    (d.put p node).get? q = some .dir := by
  have hne : p ≠ [] := by
    rintro rfl
    exact hp rfl
  rw [get?_put _ _ _ _ hne, if_neg (by rintro rfl; exact hp h)]
  exact h

/-- To make a directory takes none away. -/
theorem dir_makeDir (h : d.get? q = some .dir) (hd : d.makeDir cwd path = .ok d') :
    d'.get? q = some .dir := by
  obtain ⟨p, -, hnone, rfl⟩ := makeDir_eq_ok hd
  exact dir_put h (by rw [hnone]; exact nofun)

/-- To make the directories of a way takes none away. -/
theorem keeps_dir_makeDirs (cwd path : Path) :
    Keeps (fun d => d.get? q = some .dir) (makeDirs cwd path) :=
  keeps_makeDirs_of_makeDir (fun _ _ _ _ h hd => dir_makeDir h hd) cwd path

end Disk

namespace Scenario

open Disk (keeps_dir_makeDirs)

/-- An entry of a scenario is no removal. -/
theorem entryEffect_ne_remove (entry : String × Json) (p : Path) :
    entryEffect? entry ≠ some (.remove p) := by
  unfold entryEffect?
  split
  · exact nofun
  · exact nofun
  · intro h
    obtain ⟨content, -, hcontent⟩ := Option.map_eq_some_iff.mp h
    cases hcontent

/-- Only to remove something can take a directory away. -/
theorem keeps_dir_apply {q : Place} {e : Effect} (he : ∀ p, e ≠ .remove p) (cwd : Path) :
    Keeps (fun d => d.get? q = some .dir) (e.apply cwd) := by
  cases e with
  | write p content =>
      refine Step.keeps_bind (keeps_dir_makeDirs cwd _) fun _ => Step.keeps_attempt ?_
      intro d d' h hd
      obtain ⟨-, p, -, hover, rfl⟩ := Disk.write_eq_ok hd
      exact Disk.dir_put h hover
  | makeDir p => exact keeps_dir_makeDirs cwd _
  | link p target =>
      refine Step.keeps_bind (keeps_dir_makeDirs cwd _) fun _ => Step.keeps_attempt ?_
      intro d d' h hd
      obtain ⟨p, -, hnone, rfl⟩ := Disk.makeLink_eq_ok hd
      exact Disk.dir_put h (by rw [hnone]; exact nofun)
  | remove p => exact absurd rfl (he p)

/-- What the entries of a scenario keep is true of its disk, if it is true of the disk with
    the directory of workspaces alone. -/
theorem disk_of_entries {P : Disk → Prop} (v : Json)
    (hstart : P (endState (Disk.makeDirs root tempDir Disk.empty)))
    (hentry : ∀ entry e, entryEffect? entry = some e → Keeps P (e.apply root)) : P (disk v) := by
  unfold disk
  generalize fieldOr v "files" (fun f => some (fields f)) [] = entries
  generalize endState (Disk.makeDirs root tempDir Disk.empty) = d at hstart
  -- the temporary directory is made first and stays, entry by entry
  induction entries generalizing d with
  | nil => exact hstart
  | cons entry rest ih =>
      refine ih (makeEntry d entry) ?_
      unfold makeEntry
      cases he : entryEffect? entry with
      | none => exact hstart
      | some e => exact hentry entry e he d hstart

/-- The disk of a scenario is built from nothing by edits, so it is closed. -/
theorem closed_disk (v : Json) : (disk v).Closed := by
  have hstraight : (disk v).Straight fun _ => False := by
    refine disk_of_entries v ?_ fun entry e _ => Effect.keeps_straight (fun _ _ => id) root
    exact Disk.keeps_straight_makeDirs root tempDir _
      ⟨Disk.Closed.of_places (by decide), fun _ h => h.elim⟩
  exact hstraight.closed

theorem names_tempDir : (Path.ofString tempDir.text).names = ["WORLD", "tmp"] := by
  decide +kernel

/-- On the way to the directory of workspaces there are directories only. -/
theorem dir_of_prefix {q : Place} (hq : q <+: (Path.ofString tempDir.text).names) (v : Json) :
    (disk v).get? q = some .dir := by
  rw [names_tempDir] at hq
  refine disk_of_entries v ?_ fun entry e he => keeps_dir_apply (fun p h => ?_) root
  · have hstart : ∀ n < 3, (endState (Disk.makeDirs root tempDir Disk.empty)).get?
        (["WORLD", "tmp"].take n) = some .dir := by decide +kernel
    have hstands := hstart q.length (Nat.lt_succ_of_le hq.length_le)
    rwa [← List.prefix_iff_eq_take.mp hq] at hstands
  · rw [h] at he
    exact entryEffect_ne_remove entry p he

theorem not_up_mem_tempDir : ".." ∉ (Path.ofString tempDir.text).names := by
  rw [names_tempDir]
  decide

/-- The temporary directory of a scenario is a directory at the end of an absolute path without
    links. -/
theorem settled_world (v : Json) : (world v).Settled where
  closed := closed_disk v
  cwd := show ".." ∉ ["WORLD"] by decide
  isAbsolute := rfl
  tempDir := not_up_mem_tempDir

/-- **Scenarios are plain**, unless a process makes a link. -/
theorem plain_world (v : Json)
    (hlinkless : ∀ p ∈ (world v).script, ∀ e ∈ p.effects, e.makesLink = false) :
    (world v).Plain where
  straight := by
    refine ⟨⟨closed_disk v, fun q hq target h => ?_⟩, hlinkless⟩
    rw [show (world v).disk.get? q = _ from dir_of_prefix hq v] at h
    cases h
  isAbsolute := rfl
  noUp := not_up_mem_tempDir

/-! ## Runs in scenarios -/

/-- A run in a scenario leaves the disk as it was, if the processes that it starts keep their
    effects below their directories. -/
theorem disk_after_run (v : Json) (c : Configuration) (o : Harness.Options) (sources : List Path)
    (t : Tally)
    (htame : ∀ started,
      (endState ((Harness.plan c o).run sources (Session.start (world v) t))).world.spawns
          = started →
        Tame root (world v).script (started.map Spawn.cwd)) (q : Place) :
    (endState ((Harness.plan c o).run sources (Session.start (world v) t))).world.disk.get? q
      = (disk v).get? q := by
  have hw := settled_world v
  obtain ⟨-, -, started, hspawns, -, hdisk⟩ := (Harness.plan c o).since_run (fun _ => rfl)
    (Harness.quietHooks_plan c o) sources (Session.start (world v) t) hw.cwd hw.tempDir
  exact hdisk (htame started hspawns) hw.closed q

/-- Two scenarios that differ only in their processes, and there only in streams that nothing
    follows from, have runs that end alike and agree. -/
theorem endAlike_of_script (v v' : Json) (c : Configuration) (o : Harness.Options) (b : Bool)
    (t : Tally) (hsame : world v' = { world v with script := (world v').script })
    (hlinkless : ∀ p ∈ (world v).script, ∀ e ∈ p.effects, e.makesLink = false)
    (hscript : ∀ n, Process.Alike (n ∈ Harness.probes c o (world v)) ((world v).script.getD n .idle)
      ((world v').script.getD n .idle)) :
    EndAlike (fun code s code' s' => code' = code ∧ Harness.Agrees s s')
      (fun e s e' s' => e.Alike e' ∧ e'.message = e.message ∧ e'.exitCode? = e.exitCode?
        ∧ Harness.Agrees s s')
      (Harness.run c o (Session.start (world v) t))
      (Harness.run c { o with showErrors := b } (Session.start (world v') t)) := by
  rw [hsame]
  refine Harness.endAlike_of_abreast (plain_world v hlinkless) t b ⟨rfl, rfl, fun n => ?_, rfl⟩
  rw [show (world v).spawns.length + n = n from Nat.zero_add n]
  exact hscript n

end Scenario

end RoundTrip
