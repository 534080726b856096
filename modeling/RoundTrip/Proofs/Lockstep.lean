import RoundTrip.Proofs.Abreast

/-! # A verification in lockstep

    The verification of a case takes the same course in two runs abreast.  The error
    output of the reimport is kept in a file, so from there on the disks differ in the
    content of that file; but a workspace has no links, so the comparison finds the two
    documents themselves, which are the same in both runs, and once the artifacts are gone
    the disks are the same again: **`World.Abreast.verify`**. -/

namespace RoundTrip

open Step (EndAlike Keeps endState)
open Verification
open Disk (SameBut)

variable {S S' T : Disk → Disk → Prop} {probe : Nat → Prop} {α : Type} {w w' : World}

/-! ## Files and workspaces -/

namespace World.Abreast

/-- Two runs abreast have used up the same names and have the same disk, so they try the same
    name with the same success. -/
theorem tryNext (h : w.Abreast Eq probe w') (stem : String) :
    Concur Eq Eq probe Eq (Workspace.tryNext stem w) (Workspace.tryNext stem w') := by
  obtain ⟨disk, _, _, _, _, rfl⟩ := h.exists_eq
  obtain rfl : w.disk = disk := h.disk
  have hcount := h.countUp
  have hset : ∀ w : World, (set { w with workspaceCount := w.workspaceCount + 1 }
      : Action World PUnit) w = .ok ⟨⟩ { w with workspaceCount := w.workspaceCount + 1 } :=
    fun _ => rfl
  unfold Workspace.tryNext
  rw [Step.bind_ok (Step.get_apply _), Step.bind_ok (Step.get_apply _), Step.bind_ok (hset _),
    Step.bind_ok (hset _)]
  dsimp only
  split
  · exact .error ⟨rfl, hcount⟩
  split
  · exact .error ⟨rfl, hcount⟩
  cases w.disk.makeDir w.cwd
      (Path.ofString (Workspace.nameText w.tempDir (stem ++ toString w.workspaceCount))) with
  | ok d => exact .ok ⟨rfl, hcount.withDisk rfl⟩
  | error e =>
      cases e with
      -- the name is taken in both runs; the count goes on in both
      | alreadyExists => exact .ok ⟨rfl, hcount⟩
      | _ => exact .error ⟨rfl, hcount⟩

/-- The names are tried in the same order, by induction on the tries that are left. -/
theorem create (h : w.Abreast Eq probe w') (stem : String) (tries : Nat) :
    Concur Eq Eq probe Eq (Workspace.create stem tries w) (Workspace.create stem tries w') := by
  induction tries generalizing w w' with
  | zero => exact .error ⟨rfl, h⟩
  | succ tries ih =>
      refine Concur.bind (h.tryNext stem) fun found _ _ _ _ heq hnext => ?_
      subst heq
      cases found with
      | some p => exact .ok ⟨rfl, hnext⟩
      | none => exact ih hnext

/-- Both runs enter a workspace of the same name, or fail to find one. -/
theorem enter_workspace (h : w.Abreast Eq probe w') (stem : String) :
    Concur Eq Eq probe Eq (Workspace.enter stem w) (Workspace.enter stem w') := by
  refine Concur.bind (h.create stem _) fun dir _ _ _ _ heq hmade => ?_
  subst heq
  refine Concur.bind (hmade.prints (prints_log _ _) (prints_log _ _)) fun _ _ _ _ _ _ hnext => ?_
  exact .ok ⟨rfl, hnext⟩

/-- On the same disk the guard says the same. -/
theorem refuseExisting (h : w.Abreast Eq probe w') (p : Path) :
    Concur Eq Eq probe Eq (Workspace.refuseExisting p w) (Workspace.refuseExisting p w') := by
  obtain ⟨disk, _, _, _, _, rfl⟩ := h.exists_eq
  obtain rfl : w.disk = disk := h.disk
  unfold Workspace.refuseExisting
  rw [Step.bind_ok (Step.get_apply _), Step.bind_ok (Step.get_apply _)]
  refine Concur.bind (Concur.ofExcept h) fun isThere _ _ _ _ heq hnext => ?_
  subst heq
  cases isThere with
  | true => exact .error ⟨rfl, hnext⟩
  | false => exact .ok ⟨rfl, hnext⟩

/-- The guard over all three artifacts. -/
theorem guardArtifacts (h : w.Abreast Eq probe w') (dir : Path) :
    Concur Eq Eq probe Eq (Verification.guardArtifacts dir w)
      (Verification.guardArtifacts dir w') := by
  unfold Verification.guardArtifacts
  rw [Artifact.forM_all]
  refine Concur.bind (h.refuseExisting _) fun _ _ _ _ _ _ h₁ => ?_
  refine Concur.bind (h₁.refuseExisting _) fun _ _ _ _ _ _ h₂ => ?_
  exact h₂.refuseExisting _

/-- Two files are stored with the same success, if that is so of the disks. -/
theorem store {p : Path} {content content' : Bytes} (h : w.Abreast S probe w')
    (hwrite : EndAlike (fun _ t _ t' => S' t t') (fun e t e' t' => e' = e ∧ S' t t')
      (Disk.writeWithParents w.cwd p content w.disk)
      (Disk.writeWithParents w.cwd p content' w'.disk)) :
    Concur S' S' probe Eq (Workspace.store p content w) (Workspace.store p content' w') := by
  rw [← h.cwd_eq] at hwrite
  unfold Workspace.store Step.within
  rw [← h.cwd_eq]
  generalize Disk.writeWithParents w'.cwd p content w.disk = r at hwrite
  generalize Disk.writeWithParents w'.cwd p content' w'.disk = r' at hwrite
  cases hwrite with
  | ok ht => exact .ok ⟨rfl, h.withDisk ht⟩
  | error he =>
      obtain ⟨rfl, ht⟩ := he
      exact .error ⟨rfl, h.withDisk ht⟩

/-- The same content is stored on the same disk. -/
theorem store_eq (h : w.Abreast Eq probe w') (p : Path) (content : Bytes) :
    Concur Eq Eq probe Eq (Workspace.store p content w) (Workspace.store p content w') := by
  refine h.store ((Step.blind_eq (Disk.writeWithParents w.cwd p content) _ _ h.disk).mono ?_ ?_)
  · exact fun _ _ _ _ ht => ht.2
  · exact fun _ _ _ _ he => he

/-- Where the disks differ in one file only, the removal of any file comes to the same. -/
theorem removeIfPresent {m : Place} (h : w.Abreast (SameBut m) probe w') (p : Path) :
    Concur (SameBut m) (SameBut m) probe Eq (Workspace.removeIfPresent p w)
      (Workspace.removeIfPresent p w') := by
  have hunlink : Step.SameChange (SameBut m) (w.disk.unlink w.cwd p) (w'.disk.unlink w'.cwd p) := by
    rw [h.cwd_eq]
    exact h.disk.unlink w.cwd p
  rw [removeIfPresent_apply, removeIfPresent_apply]
  generalize w.disk.unlink w.cwd p = r at hunlink
  generalize w'.disk.unlink w'.cwd p = r' at hunlink
  cases hunlink with
  | ok hd => exact .ok ⟨rfl, h.withDisk hd⟩
  | error e =>
      rcases e with ⟨cause, paths⟩ | _ | path
      · cases cause with
        | noEntry => exact .ok ⟨rfl, h⟩
        | _ => exact .error ⟨rfl, h⟩
      · exact .error ⟨rfl, h⟩
      · exact .error ⟨rfl, h⟩

end World.Abreast

/-- A workspace is left in both runs, if the removals leave related disks. -/
theorem World.Abreast.leave {dir : Path} (h : w.Abreast S probe w') (hnul : dir.holdsNul = false)
    (hS : S' (endState (Disk.removeTree w.cwd dir w.disk))
      (endState (Disk.removeTree w'.cwd dir w'.disk))) :
    Concur S' T probe Eq (Workspace.leave dir w) (Workspace.leave dir w') := by
  obtain ⟨stdout, stderr, heq⟩ := leave_apply hnul w
  obtain ⟨stdout', stderr', heq'⟩ := leave_apply hnul w'
  rw [heq, heq']
  exact .ok ⟨rfl, (h.withDisk hS).console _ _ _ _⟩

/-! ## Artifacts in a workspace without links -/

/-- The place of an artifact. -/
def Artifact.place (a : Artifact) (dir : Path) : Place := (a.path dir).names

/-- An artifact stands directly in its directory. -/
theorem Artifact.place_eq (a : Artifact) (dir : Path) : a.place dir = dir.names ++ [a.name] := by
  rw [place, a.path_eq]

/-- The disks are the same but for the error output that is kept in a directory. -/
abbrev SameButMessages (dir : Path) : Disk → Disk → Prop := SameBut (Artifact.messages.place dir)

theorem SameButMessages.of_eq {dir : Path} (d d' : Disk) (h : d = d') : SameButMessages dir d d' :=
  h ▸ .refl d

/-- Whatever the way to an artifact leads through is near its directory. -/
theorem Artifact.near_place (a : Artifact) (dir : Path) :
    ∀ pre, pre <+: a.place dir → Near dir pre := by
  intro pre hpre
  rw [a.place_eq] at hpre
  obtain rfl | hbase := List.prefix_concat_iff.mp hpre
  · exact Or.inr (List.prefix_append _ _)
  · exact Or.inl hbase

/-- Different artifacts have different places. -/
theorem Artifact.place_ne {a b : Artifact} (h : a ≠ b) (dir : Path) :
    a.place dir ≠ b.place dir := by
  rw [a.place_eq, b.place_eq]
  intro heq
  exact h (Artifact.name_injective (List.cons.inj (List.append_cancel_left heq)).1)

/-- A file is missing where the way to it ends, or where nothing stands at its end. -/
theorem Disk.unlink_eq_noEntry {d : Disk} {cwd p : Path} {paths : List String}
    (h : d.unlink cwd p = .error (.os ⟨.noEntry, paths⟩)) :
    d.find cwd .entry p = .error .noEntry
      ∨ ∃ q, d.find cwd .entry p = .ok q ∧ d.get? q = none := by
  cases hnul : p.holdsNul with
  | true =>
      unfold unlink at h
      rw [checkNul_of_holdsNul hnul] at h
      cases h
  | false =>
      cases hfind : d.find cwd .entry p with
      | error e =>
          unfold unlink at h
          rw [checkNul_of_not_holdsNul hnul, hfind] at h
          cases h
          exact Or.inl rfl
      | ok q =>
          rw [unlink_of_find hnul hfind] at h
          split at h
          · rename_i hnone
            exact Or.inr ⟨q, rfl, hnone⟩
          · cases h
          · cases h

namespace World.Straight

variable {dir : Path} {cwd : Path} {aim : Disk.Aim} {q : Place}

/-- Where no link is near, the path of an artifact leads to its place. -/
theorem find_artifact {d : Disk} (h : d.Straight (Near dir)) (hdir : dir.Direct) (a : Artifact)
    (hq : d.find cwd aim (a.path dir) = .ok q) : q = a.place dir :=
  h.find_eq (hdir.artifact a) (a.near_place dir) hq

/-- After an artifact was removed, none is there. -/
theorem vacant_of_removeIfPresent (h : w.Straight (Near dir)) (hdir : dir.Direct) (a : Artifact)
    {u : Unit} (hremove : Workspace.removeIfPresent (a.path dir) w = .ok u w') :
    w'.disk.get? (a.place dir) = none := by
  rw [removeIfPresent_apply] at hremove
  cases hunlink : w.disk.unlink w.cwd (a.path dir) with
  | ok d =>
      rw [hunlink] at hremove
      cases hremove
      obtain ⟨q, hq, -, rfl⟩ := Disk.unlink_eq_ok hunlink
      obtain rfl := find_artifact h.disk hdir a hq
      show (w.disk.erase _).get? _ = none
      rw [Disk.get?_erase _ _ _ (by rw [a.place_eq]; simp), if_pos rfl]
  | error e =>
      -- the removal came to a good end, so its only error can be that the file is missing
      have hmissing : w' = w ∧ ∃ paths, e = .os ⟨.noEntry, paths⟩ := by
        rw [hunlink] at hremove
        rcases e with ⟨cause, paths⟩ | _ | path
        · cases cause with
          | noEntry =>
              cases hremove
              exact ⟨rfl, paths, rfl⟩
          | _ => cases hremove
        · cases hremove
        · cases hremove
      obtain ⟨rfl, paths, rfl⟩ := hmissing
      obtain hfind | ⟨q, hfind, hnone⟩ := Disk.unlink_eq_noEntry hunlink
      · exact h.disk.get?_of_noEntry (hdir.artifact a) (a.near_place dir) hfind
      · rwa [find_artifact h.disk hdir a hfind] at hnone

end World.Straight

/-- Once the artifacts are gone, the disks are the same. -/
theorem World.Abreast.clearArtifacts {dir : Path} (h : w.Abreast (SameButMessages dir) probe w')
    (hs : w.Straight (Near dir)) (hdir : dir.Direct) :
    Concur Eq (fun _ _ => True) probe Eq (Workspace.clearArtifacts dir w)
      (Workspace.clearArtifacts dir w') := by
  have hkeeps := (World.Straight.lasts (Near dir) dir).remove
  have hany : ∀ d d', SameButMessages dir d d' → True := fun _ _ _ => trivial
  unfold Workspace.clearArtifacts
  rw [Artifact.forM_all]
  refine Concur.bind ((h.removeIfPresent _).weaken hany) fun _ w₁ _ w₁' heq₁ _ h₁ => ?_
  have hs₁ := (hkeeps .expected).of_eq_ok hs heq₁
  refine Concur.bind ((h₁.removeIfPresent _).weaken hany) fun _ w₂ _ w₂' heq₂ _ h₂ => ?_
  have hs₂ := (hkeeps .obtained).of_eq_ok hs₁ heq₂
  -- the last artifact is the one in which the disks differ; it is the place that is vacant in
  -- the end
  have hlast := h₂.removeIfPresent (Artifact.messages.path dir)
  generalize hr : Workspace.removeIfPresent (Artifact.messages.path dir) w₂ = r at hlast ⊢
  generalize Workspace.removeIfPresent (Artifact.messages.path dir) w₂' = r' at hlast ⊢
  cases hlast with
  | ok ht =>
      obtain ⟨heq, ht⟩ := ht
      have hvacant := hs₂.vacant_of_removeIfPresent hdir .messages hr
      exact .ok ⟨heq, ht.others, (ht.disk.eq_of_vacant hvacant).symm, ht.script, ht.spawns⟩
  | error he => exact .error ⟨he.1, he.2.mono hany⟩

/-! ## Which processes are no probes -/

/-- Up to this end no probe is started any more. -/
def Unprobed (probe : Nat → Prop) (w : World) (r : EStateM.Result Fault World α) : Prop :=
  ∀ n, w.spawns.length ≤ n → n < (endState r).spawns.length → ¬probe n

namespace Unprobed

variable {β : Type} {x : Action World β} {f : β → Action World α}

/-- A command that comes first starts no probe. -/
theorem command {c : Command} (h : Unprobed probe w (c.run w)) : ¬probe w.spawns.length :=
  h _ le_rfl (by rw [c.length_run]; omega)

/-- Up to the end of the first step there is no probe, if there is none up to the end of both.
    -/
theorem first (h : Unprobed probe w ((x >>= f) w)) (hf : ∀ b, Grows (f b)) :
    Unprobed probe w (x w) :=
  fun n hn hlt => h n hn (Step.endState_bind_of (P := fun u : World => n + 1 ≤ u.spawns.length) hlt
    fun b => hf b (n + 1))

/-- From the end of the first step on there is none either. -/
theorem next {b : β} {t : World} (h : Unprobed probe w ((x >>= f) w)) (hx : Grows x)
    (heq : x w = .ok b t) : Unprobed probe t (f b t) := by
  intro n hn hlt
  refine h n (((hx _).of_eq_ok le_rfl heq).trans hn) ?_
  rwa [Step.bind_ok heq]

/-- Before a clean-up there is none, if there is none up to its end. -/
theorem ensured {x : Action World α} {cleanUp : Action World Unit}
    (h : Unprobed probe w (Step.ensuring x cleanUp w)) (hc : Grows cleanUp) :
    Unprobed probe w (x w) := by
  intro n hn hlt
  refine h n hn ?_
  rw [Step.endState_ensuring]
  exact hc (n + 1) _ hlt

end Unprobed

/-! ## The stages, from the last to the first -/

/-- What two runs find of a case: the same, but for the streams that are shown with a
    failed export or import. -/
structure Finding.Alike (r r' : Finding) : Prop where
  subject_eq : r'.subject = r.subject
  verdict_eq : r'.verdict = r.verdict
  message_eq : r'.message = r.message
  diagnostic_eq : r.verdict ≠ .exportFailed → r.verdict ≠ .importFailed →
    r'.diagnostic = r.diagnostic

theorem Finding.Alike.refl (r : Finding) : r.Alike r := ⟨rfl, rfl, rfl, fun _ _ => rfl⟩

/-- A process that was too slow is told of by its words and its time, which are the same. -/
theorem Invocation.Matches.timedOut {kept : Prop} {i i' : Invocation} (hi : i.Matches kept i')
    (c : Case) (step : String) : (c.timedOut step i).Alike (c.timedOut step i') := by
  unfold Case.timedOut
  rw [hi.milliseconds_eq, hi.argv_eq]
  exact .refl _

/-- Of the files it is given, a process reads the last two only. -/
theorem Process.withContents?_concat (p : Process) (xs ys : List (Option Bytes))
    (a b : Option Bytes) : p.withContents? (xs ++ [a, b]) = p.withContents? (ys ++ [a, b]) := by
  unfold Process.withContents?
  rw [List.reverse_append, List.reverse_append]
  cases p.fileUse with
  | none => rfl
  | some use => cases use <;> cases a <;> cases b <;> rfl

namespace World.Abreast

variable {dir : Path} {c : Case} {k : Compiler} {t : Comparator} {i i' : Invocation}

/-- Matching comparisons are judged alike. -/
theorem judge (h : w.Abreast S probe w') (hi : i.Matches True i') (t : Comparator) (dir : Path) :
    Concur S S probe Eq (Verification.judge t dir i w) (Verification.judge t dir i' w') := by
  unfold Verification.judge
  rw [hi.timedOut_eq, hi.exitCode_eq, hi.stdout_eq trivial]
  split
  · refine Concur.bind (h.prints (prints_log _ _) (prints_log _ _)) fun _ _ _ _ _ _ hnext => ?_
    exact .ok ⟨rfl, hnext⟩
  · exact .error ⟨rfl, h⟩

/-- The last two files of a comparison are the documents, after whatever the words of its tool
    name. -/
theorem contents_comparison (words : List String) (d : Disk) (cwd : Path) :
    (comparison t words dir).contents d cwd
      = words.map (fun (word : String) => (d.contentOf cwd (dir / word)).toOption)
        ++ [(d.contentOf cwd (dir / (Artifact.expected.path dir).text)).toOption,
          (d.contentOf cwd (dir / (Artifact.obtained.path dir).text)).toOption] := by
  unfold Command.contents comparison
  rw [List.map_append]
  rfl

/-- The comparison looks at the two documents and at nothing else. -/
theorem compare (h : w.Abreast (SameButMessages dir) probe w')
    (hs : w.Straight (Near dir)) (hdir : dir.Direct)
    (hprobe : ∀ words, Text.ShellWords.split t.words = .ok words → ¬probe w.spawns.length) :
    Concur (SameButMessages dir) (SameButMessages dir) probe Eq
      (t.compare (Artifact.expected.path dir) (Artifact.obtained.path dir) w)
      (t.compare (Artifact.expected.path dir) (Artifact.obtained.path dir) w') := by
  cases hw : Text.ShellWords.split t.words with
  | error e =>
      unfold Comparator.compare Comparator.argv
      rw [hw]
      exact .error ⟨rfl, h⟩
  | ok words =>
      rw [compare_eq hw]
      refine Concur.bind (R := Invocation.Matches True)
        (h.run ⟨rfl, rfl, rfl⟩ (fun _ _ => Effect.blind_applyAll _ _) (fun d d' hd hsame p => ?_)
          fun _ => ⟨hprobe words hw, rfl⟩) fun i _ i' _ _ hi hnext => hnext.judge hi t dir
      have hstraight : d.Straight (Near dir) := by
        refine (Effect.keeps_straight_applyAll ?_ _).of_eq_ok hs.disk hd
        exact hs.linkless_headD
      -- the two documents are found at their own places, where the disks agree
      have hcontent : ∀ a : Artifact, a ≠ .messages → d'.contentOf w.cwd (dir / (a.path dir).text)
          = d.contentOf w.cwd (dir / (a.path dir).text) := by
        intro a ha
        rw [(hdir.artifact a).div_text]
        refine hsame.contentOf_eq fun q hq => ?_
        rw [World.Straight.find_artifact hstraight hdir a hq]
        exact Artifact.place_ne ha dir
      rw [contents_comparison, contents_comparison, hcontent .expected (by decide),
        hcontent .obtained (by decide)]
      exact p.withContents?_concat _ _ _ _

/-- Where no link is in the way, the error output is all that differs once it is stored. -/
theorem storeMessages (h : w.Abreast Eq probe w') (hs : w.Straight (Near dir)) (hdir : dir.Direct)
    (content content' : Bytes) :
    Concur (SameButMessages dir) (SameButMessages dir) probe Eq
      (Workspace.store (Artifact.messages.path dir) content w)
      (Workspace.store (Artifact.messages.path dir) content' w') := by
  have hsame : SameButMessages dir w.disk w'.disk := .of_eq _ _ h.disk
  refine h.store (hsame.writeWithParents content content' fun d hd q hq => ?_)
  have hmade := (Disk.keeps_straight_makeDirs w.cwd _).of_eq_ok hs.disk hd
  exact World.Straight.find_artifact hmade hdir .messages hq

/-- What is done with the reimport: its error output is kept, but nothing follows from it. -/
theorem afterReimport (h : w.Abreast Eq probe w') (hi : i.Matches True i')
    (hs : w.Straight (Near dir)) (hdir : dir.Direct)
    (hprobe : Unprobed probe w (Verification.afterReimport c t dir i w)) :
    Concur (SameButMessages dir) (SameButMessages dir) probe Finding.Alike
      (Verification.afterReimport c t dir i w)
      (Verification.afterReimport c t dir i' w') := by
  have hlasts := World.Straight.lasts (Near dir) dir
  unfold Verification.afterReimport at hprobe ⊢
  rw [hi.timedOut_eq, hi.exitCode_eq, hi.stdout_eq trivial]
  by_cases htime : i.timedOut = true
  · rw [if_pos htime, if_pos htime]
    exact .ok ⟨hi.timedOut c _, h.mono SameButMessages.of_eq⟩
  rw [if_neg htime] at hprobe ⊢
  rw [if_neg htime]
  refine Concur.bind ((h.store_eq _ i.stdout).weaken SameButMessages.of_eq)
    fun _ w₁ _ w₁' heq₁ _ h₁ => ?_
  have hs₁ := (hlasts.store .obtained _).of_eq_ok hs heq₁
  have hprobe₁ := hprobe.next (fun n => (lasts_grows n dir).store .obtained _) heq₁
  refine Concur.bind (h₁.storeMessages hs₁ hdir i.stderr i'.stderr) fun _ w₂ _ w₂' heq₂ _ h₂ => ?_
  have hs₂ := (hlasts.store .messages _).of_eq_ok hs₁ heq₂
  have hprobe₂ := hprobe₁.next (fun n => (lasts_grows n dir).store .messages _) heq₂
  by_cases hexit : i.exitCode ≠ 0
  · rw [if_pos hexit, if_pos hexit]
    exact .ok ⟨⟨rfl, rfl, rfl, fun _ himport => absurd rfl himport⟩, h₂⟩
  rw [if_neg hexit] at hprobe₂ ⊢
  rw [if_neg hexit]
  -- what is left of the case is the comparison, and it is no probe
  have hcompare := hprobe₂.first fun d n => (lasts_grows n dir).quiet (quiet_pure _)
  refine Concur.bind (h₂.compare hs₂ hdir fun words hw => ?_) fun d _ _ _ _ heq hnext => ?_
  · rw [compare_eq hw] at hcompare
    exact (hcompare.first fun i n => (lasts_grows n dir).quiet (quiet_judge t dir i)).command
  · subst heq
    exact .ok ⟨.refl _, hnext⟩

/-- A call of the compiler that is no probe, and what is done after it. -/
theorem callThen {call call' : Command} {f f' : Invocation → Action World Finding}
    (h : w.Abreast Eq probe w') (hs : w.Straight (Near dir)) (hcalls : call.Alike call')
    (hforwards : call'.forwardsStdout = call.forwardsStdout) (hf : ∀ i, Grows (f i))
    (hprobe : Unprobed probe w ((call.run >>= f) w))
    (hnext : ∀ i i' t t', i.Matches True i' → t.Abreast Eq probe t' → t.Straight (Near dir) →
      Unprobed probe t (f i t) →
      Concur (SameButMessages dir) (SameButMessages dir) probe Finding.Alike (f i t) (f' i' t')) :
    Concur (SameButMessages dir) (SameButMessages dir) probe Finding.Alike
      ((call.run >>= f) w) ((call'.run >>= f') w') := by
  have hrun : Concur Eq Eq probe (Invocation.Matches True) (call.run w) (call'.run w') :=
    h.run_eq hcalls fun _ => ⟨(hprobe.first hf).command, hforwards⟩
  refine Concur.bind (hrun.weaken SameButMessages.of_eq) fun i t i' t' heq hi ht => ?_
  refine hnext i i' t t' hi ht ?_ (hprobe.next (fun n => (lasts_grows n dir).run _ trivial) heq)
  exact ((World.Straight.lasts (Near dir) dir).run _ trivial).of_eq_ok hs heq

/-- The reimport and what is done after it. -/
theorem reimportAndCompare (h : w.Abreast Eq probe w') (hs : w.Straight (Near dir))
    (hdir : dir.Direct) (b : Bool)
    (hprobe : Unprobed probe w (Verification.reimportAndCompare c k t dir w)) :
    Concur (SameButMessages dir) (SameButMessages dir) probe Finding.Alike
      (Verification.reimportAndCompare c k t dir w)
      (Verification.reimportAndCompare c { k with showErrors := b } t dir w') := by
  rw [reimportAndCompare_eq] at hprobe ⊢
  rw [reimportAndCompare_eq]
  exact h.callThen hs ⟨rfl, rfl, rfl⟩ rfl
    (fun i n => (lasts_grows n dir).keeps_afterReimport (allCommands_true c k t dir) i) hprobe
    fun i i' t t' hi ht hst hprobe₁ => ht.afterReimport hi hst hdir hprobe₁

/-- What is done after the export: the document is the same, so it is stored alike. -/
theorem afterExport (h : w.Abreast Eq probe w') (hi : i.Matches True i')
    (hs : w.Straight (Near dir)) (hdir : dir.Direct) (b : Bool)
    (hprobe : Unprobed probe w (Verification.afterExport c k t dir i w)) :
    Concur (SameButMessages dir) (SameButMessages dir) probe Finding.Alike
      (Verification.afterExport c k t dir i w)
      (Verification.afterExport c { k with showErrors := b } t dir i' w') := by
  unfold Verification.afterExport at hprobe ⊢
  rw [hi.timedOut_eq, hi.exitCode_eq, hi.stdout_eq trivial]
  by_cases htime : i.timedOut = true
  · rw [if_pos htime, if_pos htime]
    exact .ok ⟨hi.timedOut c _, h.mono SameButMessages.of_eq⟩
  rw [if_neg htime] at hprobe ⊢
  rw [if_neg htime]
  refine Concur.bind ((h.store_eq _ i.stdout).weaken SameButMessages.of_eq)
    fun _ w₁ _ w₁' heq₁ _ h₁ => ?_
  have hs₁ := ((World.Straight.lasts (Near dir) dir).store .expected _).of_eq_ok hs heq₁
  have hprobe₁ := hprobe.next (fun n => (lasts_grows n dir).store .expected _) heq₁
  by_cases hexit : i.exitCode ≠ 0
  · rw [if_pos hexit, if_pos hexit]
    exact .ok ⟨⟨rfl, rfl, rfl, fun hexport => absurd rfl hexport⟩, h₁.mono SameButMessages.of_eq⟩
  rw [if_neg hexit] at hprobe₁ ⊢
  rw [if_neg hexit]
  exact h₁.reimportAndCompare hs₁ hdir b hprobe₁

/-- Everything between the probe and the removal of the artifacts. -/
theorem roundTrip (h : w.Abreast Eq probe w') (hs : w.Straight (Near dir)) (hdir : dir.Direct)
    (b : Bool) (hprobe : Unprobed probe w (Verification.roundTrip c k t dir w)) :
    Concur (SameButMessages dir) (SameButMessages dir) probe Finding.Alike
      (Verification.roundTrip c k t dir w)
      (Verification.roundTrip c { k with showErrors := b } t dir w') := by
  have hcalls : (k.exportDocument c.inputs dir).Alike
      ({ k with showErrors := b }.exportDocument c.inputs dir) := ⟨rfl, rfl, rfl⟩
  rw [roundTrip_eq] at hprobe ⊢
  rw [roundTrip_eq]
  exact h.callThen hs hcalls rfl
    (fun i n => (lasts_grows n dir).keeps_afterExport (allCommands_true c k t dir) i) hprobe
    fun i i' t t' hi ht hst hprobe₁ => ht.afterExport hi hst hdir b hprobe₁

/-- Whatever way the steps after the probe end, the artifacts are removed. -/
theorem afterProbe (h : w.Abreast Eq probe w') (hi : i.Matches False i')
    (hs : w.Straight (Near dir)) (hdir : dir.Direct) (b : Bool)
    (hprobe : Unprobed probe w (Verification.afterProbe c k t dir i w)) :
    Concur Eq (fun _ _ => True) probe Finding.Alike (Verification.afterProbe c k t dir i w)
      (Verification.afterProbe c { k with showErrors := b } t dir i' w') := by
  have hlasts := World.Straight.lasts (Near dir) dir
  have hany : ∀ d d' : Disk, d = d' → True := fun _ _ _ => trivial
  unfold Verification.afterProbe at hprobe ⊢
  rw [hi.timedOut_eq, hi.exitCode_eq]
  by_cases htime : i.timedOut = true
  · rw [if_pos htime, if_pos htime]
    exact .ok ⟨hi.timedOut c _, h⟩
  rw [if_neg htime] at hprobe ⊢
  rw [if_neg htime]
  by_cases hexit : i.exitCode ≠ 0
  · rw [if_pos hexit, if_pos hexit]
    exact .ok ⟨.refl _, h⟩
  rw [if_neg hexit] at hprobe ⊢
  rw [if_neg hexit]
  refine Concur.bind ((h.guardArtifacts dir).weaken hany) fun _ w₁ _ w₁' heq₁ _ h₁ => ?_
  have hs₁ := (Verification.looks_guardArtifacts dir _).of_eq_ok hs heq₁
  have hprobe₁ := (hprobe.next (fun _ => Verification.looks_guardArtifacts dir _) heq₁).ensured
    fun n => (lasts_grows n dir).keeps_clearArtifacts
  -- the clean-up starts where the round trip ends, at either end with no link near the
  -- workspace
  have hstays := hlasts.keeps_roundTrip (allCommands_true c k t dir) w₁ hs₁
  refine EndAlike.ensuring (h₁.roundTrip hs₁ hdir b hprobe₁) (fun r t₁ r' t₁' heq hr => ?_)
    fun e t₁ e' t₁' heq he => ?_
  · rw [heq] at hstays
    exact EndAlike.mono (hr.2.clearArtifacts hstays hdir) (fun _ _ _ _ hc => ⟨hr.1, hc.2⟩)
      fun _ _ _ _ hf => hf
  · rw [heq] at hstays
    exact EndAlike.mono (he.2.clearArtifacts hstays hdir)
      (fun _ _ _ _ hc => ⟨he.1, hc.2.mono hany⟩) fun _ _ _ _ hf => hf

/-- **A verification takes the same course in two runs abreast**, whatever its first process
    prints. -/
theorem verify (h : w.Abreast Eq probe w') (hs : w.Straight (Near dir)) (hdir : dir.Direct)
    (b : Bool) (hprobe : ∀ n, w.spawns.length < n →
      n < (endState (Verification.verify c k t dir w)).spawns.length → ¬probe n) :
    Concur Eq (fun _ _ => True) probe Finding.Alike (Verification.verify c k t dir w)
      (Verification.verify c { k with showErrors := b } t dir w') := by
  have hcalls : (k.probe c.inputs dir).Alike ({ k with showErrors := b }.probe c.inputs dir) :=
    ⟨rfl, rfl, rfl⟩
  have hrun : Concur Eq (fun _ _ => True) probe (Invocation.Matches False) _ _ :=
    (h.run_eq hcalls fun hkept => hkept.elim).weaken fun _ _ _ => trivial
  refine Concur.bind hrun fun i w₁ _ _ heq hi h₁ => ?_
  refine h₁.afterProbe hi (((World.Straight.lasts (Near dir) dir).run _ trivial).of_eq_ok hs heq)
    hdir b fun n hn hlt => hprobe n ?_ ?_
  -- the probe itself has used up one number
  · have hlength := Command.length_run (k.probe c.inputs dir) w
    rw [heq] at hlength
    exact Nat.lt_of_succ_le (hlength.ge.trans hn)
  · unfold Verification.verify
    rwa [Step.bind_ok heq]

end World.Abreast

end RoundTrip
