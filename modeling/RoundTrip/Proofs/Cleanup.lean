import RoundTrip.Proofs.Faults
import RoundTrip.Proofs.Guard

/-! # What the clean-up leaves

    After its guard a verification removes the artifacts, whichever way it ends.  A
    directory under the name of one cannot be removed that way: the clean-up stops
    there, and its own fault takes the place of the verdict.

    While a case is `AtWork`, the disk is confined to its directory, so the clean-up
    meets every artifact at its entry (`Reaches.clear_cases`).  With what can go wrong
    before it (`fails_roundTrip`), that says exactly when a verification ends in order
    and without artifacts: **`finishes_clean_iff`**. -/

namespace RoundTrip

open Step (endState outcome)

/-- What is not found at a place is none of the entries. -/
theorem Disk.ne_of_find?_eq_none {p : Place} {es : List (Place × Node)} (h : find? p es = none) :
    ∀ e ∈ es, e.1 ≠ p := by
  induction es with
  | nil => exact fun e he => nomatch he
  | cons e es ih =>
      rw [find?] at h
      split at h
      · cases h
      next hne => exact List.forall_mem_cons.mpr ⟨hne, ih h⟩

/-- There is nothing to erase where nothing stands. -/
theorem Disk.erase_of_get?_eq_none {d : Disk} {p : Place} (h : d.get? p = none) :
    d.erase p = d := by
  have hfind : find? p d.entries = none := by
    unfold Disk.get? at h
    split at h
    · cases h
    · exact h
  have hall : ∀ e ∈ d.entries, decide (e.1 ≠ p) = true :=
    fun e he => decide_eq_true (ne_of_find?_eq_none hfind e he)
  unfold Disk.erase
  rw [List.filter_eq_self.mpr hall]

/-- From one disk to the other files and links may have gone, and nothing else has
    changed. -/
def Disk.Thinned (d d' : Disk) : Prop :=
  ∀ q, d'.get? q = d.get? q ∨ d'.get? q = none ∧ d.get? q ≠ some .dir

namespace Disk.Thinned

variable {d d' d'' : Disk} {q : Place}

theorem refl (d : Disk) : d.Thinned d := fun _ => Or.inl rfl

/-- Nothing appears on a thinned disk. -/
theorem get?_eq_none (h : d.Thinned d') (hq : d.get? q = none) : d'.get? q = none := by
  obtain hsame | ⟨hnone, -⟩ := h q
  · rw [hsame, hq]
  · exact hnone

/-- Directories are neither made nor taken away. -/
theorem get?_eq_dir_iff (h : d.Thinned d') : d'.get? q = some .dir ↔ d.get? q = some .dir := by
  obtain hsame | ⟨hnone, hne⟩ := h q
  · rw [hsame]
  · rw [hnone]
    exact ⟨fun hq => (nomatch hq), fun hq => absurd hq hne⟩

/-- To thin a disk twice is to thin it. -/
theorem trans (h : d.Thinned d') (h' : d'.Thinned d'') : d.Thinned d'' := by
  intro q
  obtain hsame | ⟨hnone, hne⟩ := h' q
  · rw [hsame]
    exact h q
  · exact Or.inr ⟨hnone, fun hq => hne (h.get?_eq_dir_iff.mpr hq)⟩

theorem erase {p : Place} (hne : d.get? p ≠ some .dir) : d.Thinned (d.erase p) := by
  intro q
  by_cases hq : q = []
  · subst hq
    exact Or.inl rfl
  · rw [Disk.get?_erase _ _ _ hq]
    by_cases hqp : q = p
    · rw [if_pos hqp, hqp]
      exact Or.inr ⟨rfl, hne⟩
    · rw [if_neg hqp]
      exact Or.inl rfl

end Disk.Thinned

/-! ## Removing artifacts -/

namespace Reaches

variable {d₀ d : Disk} {cwd dir : Path} {place : Place} {w : World}

/-- An artifact is erased, unless a directory stands under its name. -/
theorem removeIfPresent_eq (hr : Reaches d₀ cwd dir place) (hw : w.cwd = cwd)
    (h : Confined d₀ place w.disk) (a : Artifact) :
    Workspace.removeIfPresent (a.path dir) w
      = if w.disk.get? (place ++ [a.name]) = some .dir
        then .error (.path (.refused .isDirectory (a.path dir))) w
        else .ok () { w with disk := w.disk.erase (place ++ [a.name]) } := by
  subst hw
  have hunlink := Disk.unlink_of_find (hr.holdsNul_path a) (hr.find_artifact h .entry a)
  rw [removeIfPresent_apply, hunlink]
  cases hget : w.disk.get? (place ++ [a.name]) with
  | none =>
      rw [Disk.erase_of_get?_eq_none hget]
      rfl
  | some node => cases node <;> rfl

/-- An artifact that is erased is one in the workspace. -/
theorem confined_erase (h : Confined d₀ place d) (a : Artifact) :
    Confined d₀ place (d.erase (place ++ [a.name])) :=
  h.changesBelow ((Disk.ChangesBelow.refl _ d).erase (List.prefix_refl _))

/-- Artifacts are removed in order, up to the first that is a directory; nothing else
    is changed. -/
theorem clear_cases (hr : Reaches d₀ cwd dir place) (hw : w.cwd = cwd)
    (h : Confined d₀ place w.disk) (as : List Artifact) :
    ∃ d, w.disk.Thinned d
      ∧ (as.forM (fun a => Workspace.removeIfPresent (a.path dir)) w = .ok ⟨⟩ { w with disk := d }
          ∧ (∀ a ∈ as, d.get? (place ++ [a.name]) = none)
        ∨ ∃ a ∈ as, d.get? (place ++ [a.name]) = some .dir
          ∧ as.forM (fun a => Workspace.removeIfPresent (a.path dir)) w
            = .error (.path (.refused .isDirectory (a.path dir))) { w with disk := d }) := by
  induction as generalizing w with
  | nil => exact ⟨w.disk, .refl _, Or.inl ⟨rfl, fun a ha => nomatch ha⟩⟩
  | cons a as ih =>
      have hcons : (a :: as).forM (fun a => Workspace.removeIfPresent (a.path dir))
          = (Workspace.removeIfPresent (a.path dir)
            >>= fun _ => as.forM fun a => Workspace.removeIfPresent (a.path dir)) := rfl
      have hremove := hr.removeIfPresent_eq hw h a
      rw [hcons]
      -- the first directory among the artifacts ends the loop
      by_cases hdir : w.disk.get? (place ++ [a.name]) = some .dir
      · rw [if_pos hdir] at hremove
        exact ⟨w.disk, .refl _,
          Or.inr ⟨a, List.mem_cons_self, hdir, Step.bind_error hremove⟩⟩
      · rw [if_neg hdir] at hremove
        have hne : place ++ [a.name] ≠ [] := by simp
        have hgone : (w.disk.erase (place ++ [a.name])).get? (place ++ [a.name]) = none := by
          rw [Disk.get?_erase _ _ _ hne, if_pos rfl]
        obtain ⟨d, hthin, hends⟩ := ih (w := { w with disk := w.disk.erase (place ++ [a.name]) }) hw
          (confined_erase h a)
        rw [Step.bind_ok hremove]
        refine ⟨d, (Disk.Thinned.erase hdir).trans hthin, ?_⟩
        obtain ⟨hok, hnone⟩ | ⟨b, hb, hbdir, herror⟩ := hends
        · exact Or.inl ⟨hok, List.forall_mem_cons.mpr ⟨hthin.get?_eq_none hgone, hnone⟩⟩
        · exact Or.inr ⟨b, List.mem_cons_of_mem _ hb, hbdir, herror⟩

end Reaches

namespace Verification

/-! ## A case at work -/

/-- A case is at work in its directory: what its processes may still do goes through
    the directory, and the disk has changed in there only. -/
structure AtWork (d₀ : Disk) (cwd dir : Path) (place : Place) (w : World) : Prop where
  cwd_eq : w.cwd = cwd
  scripted : ∀ p ∈ w.script, ∀ e ∈ p.effects, ∃ n, e.GoesThrough d₀ (cwd / dir) place n
  confined : Confined d₀ place w.disk

variable {d₀ : Disk} {cwd dir : Path} {place : Place} {w w₁ : World}

theorem AtWork.with_disk (h : AtWork d₀ cwd dir place w) {d : Disk} (hd : Confined d₀ place d) :
    AtWork d₀ cwd dir place { w with disk := d } :=
  ⟨h.cwd_eq, h.scripted, hd⟩

/-- A case stays at work whatever it does. -/
theorem AtWork.lasts (hr : Reaches d₀ cwd dir place) :
    Lasts (AtWork d₀ cwd dir place) (fun c => c.cwd = dir) dir where
  quiet := fun hx => hx.keeps fun w w' hdisk hrecord h => by
    simp only [World.record, Prod.mk.injEq] at hrecord
    obtain ⟨hcwd, -, hscript, -⟩ := hrecord
    exact ⟨hcwd.trans h.cwd_eq, hscript ▸ h.scripted, hdisk ▸ h.confined⟩
  run := by
    intro c hc w h
    have hran := Command.ran_run c w
    -- the workspace itself was there before, and no effect takes it away
    have hd₀ : d₀.get? place = some .dir :=
      h.confined.get?_place.symm.trans (hr.leads_dir h.confined).2
    refine ⟨hran.cwd_eq.trans h.cwd_eq, fun p hp => ?_, ?_⟩
    · rw [hran.script_eq] at hp
      exact h.scripted p (List.mem_of_mem_tail hp)
    · obtain hdisk | hdisk := hran.disk
      · rw [hdisk]
        exact h.confined
      · rw [hdisk, h.cwd_eq, hc]
        refine Confined.effects hd₀ (fun e he => ?_) _ h.confined
        cases hs : w.script with
        | nil =>
            rw [hs] at he
            exact nomatch he
        | cons p rest =>
            rw [hs] at he
            exact h.scripted p (by rw [hs]; exact List.mem_cons_self) e he
  store := by
    intro a content w h
    have hwrite := hr.writeWithParents_eq h.confined a content
    rw [← h.cwd_eq] at hwrite
    rw [endState_store, hwrite]
    split
    · exact h
    · have hput : w.disk.ChangesBelow (place ++ [a.name])
          (w.disk.put (place ++ [a.name]) (.file content)) :=
        (Disk.ChangesBelow.refl _ _).put (List.prefix_refl _) (by simp) (by simp)
      exact h.with_disk (h.confined.changesBelow hput)
  remove := by
    intro a w h
    rw [hr.removeIfPresent_eq h.cwd_eq h.confined]
    split
    · exact h
    · exact h.with_disk (Reaches.confined_erase h.confined a)

/-- Once its probe has come to a good end, the case is at work until its round trip
    ends. -/
theorem atWork_roundTrip {probe : Invocation} (c : Case) (compiler : Compiler) (t : Comparator)
    (hr : Reaches w.disk w.cwd dir place) (hlinks : w.disk.LinkFree place)
    (heffects : ∀ p ∈ w.script, ∀ e ∈ p.effects, ∃ n, e.GoesThrough w.disk (w.cwd / dir) place n)
    (hprobe : (compiler.probe c.inputs dir).run w = .ok probe w₁) :
    AtWork w.disk w.cwd dir place (endState (roundTrip c compiler t dir w₁)) := by
  have hlasts := AtWork.lasts hr
  have hwork₁ := hlasts.run (compiler.probe c.inputs dir) rfl w ⟨rfl, heffects, .refl hlinks⟩
  rw [hprobe] at hwork₁
  exact hlasts.keeps_roundTrip (allCommands_cwd _ _ _ _) w₁ hwork₁

/-! ## The end of a verification -/

/-- A directory stands under the name of an artifact. -/
def Blocked (d : Disk) (place : Place) (a : Artifact) : Prop :=
  d.get? (place ++ [a.name]) = some .dir

/-- A verification ends in order: in a result, or in a defect. -/
def EndsInOrder (r : Except Fault Finding) : Prop := ∀ e, r = .error e → ∃ d, e = .defect d

/-- The clean-up removes all artifacts, unless a directory stands in its way. -/
theorem AtWork.clearArtifacts_cases (hr : Reaches d₀ cwd dir place)
    (h : AtWork d₀ cwd dir place w) :
    (∃ d, Workspace.clearArtifacts dir w = .ok () { w with disk := d }
      ∧ (∀ a : Artifact, d.get? (place ++ [a.name]) = none) ∧ ∀ a, ¬ Blocked w.disk place a)
      ∨ ∃ (d : Disk) (a : Artifact), Workspace.clearArtifacts dir w
        = .error (.path (.refused .isDirectory (a.path dir))) { w with disk := d }
          ∧ Blocked w.disk place a ∧ Blocked d place a := by
  obtain ⟨d, hthin, ⟨hclear, hnone⟩ | ⟨a, -, hdir, hclear⟩⟩ :=
    hr.clear_cases h.cwd_eq h.confined Artifact.all
  · refine Or.inl ⟨d, hclear, fun a => hnone a a.mem_all, ?_⟩
    intro a hblocked
    have hdir := hthin.get?_eq_dir_iff.mpr hblocked
    rw [hnone a a.mem_all] at hdir
    cases hdir
  · exact Or.inr ⟨d, a, hclear, hthin.get?_eq_dir_iff.mp hdir, hdir⟩

/-- **When a verification ends in order and without artifacts.**  Once it has passed
    its guard, it does so if and only if no directory stands under the name of an
    artifact when its round trip ends, and no process has taken longer than the clock
    can tell or was to change a path that no name can match.  Where such a directory
    stands, the refusal to remove one is what the verification ends in, and that
    directory is left. -/
theorem finishes_clean_iff {t : Comparator} {words : List String} {probe : Invocation} (c : Case)
    (compiler : Compiler) (hw : Text.ShellWords.split t.words = .ok words)
    (hr : Reaches w.disk w.cwd dir place) (hlinks : w.disk.LinkFree place)
    (heffects : ∀ p ∈ w.script, ∀ e ∈ p.effects, ∃ n, e.GoesThrough w.disk (w.cwd / dir) place n)
    (hprobe : (compiler.probe c.inputs dir).run w = .ok probe w₁) (ht : probe.timedOut = false)
    (he : probe.exitCode = 0) (hguard : guardArtifacts dir w₁ = .ok () w₁) :
    ((EndsInOrder (outcome (verify c compiler t dir w))
        ∧ ∀ a : Artifact,
          (endState (verify c compiler t dir w)).disk.get? (place ++ [a.name]) = none)
      ↔ (∀ a, ¬ Blocked (endState (roundTrip c compiler t dir w₁)).disk place a)
        ∧ ∀ e, outcome (roundTrip c compiler t dir w₁) = .error e →
          (∀ k, e ≠ .clock k) ∧ e ≠ .path .nul)
      ∧ ((∃ a, Blocked (endState (roundTrip c compiler t dir w₁)).disk place a) →
        ∃ a, outcome (verify c compiler t dir w)
            = .error (.path (.refused .isDirectory (a.path dir)))
          ∧ Blocked (endState (verify c compiler t dir w)).disk place a) := by
  have hverify := verify_of_good_probe c compiler t hprobe ht he
  rw [Step.bind_ok hguard] at hverify
  have hwork := atWork_roundTrip c compiler t hr hlinks heffects hprobe
  have hfails : Step.Fails Fault.IsAnswered (roundTrip c compiler t dir) :=
    fails_roundTrip hr.noNul hw
  -- the removal comes to a good end, or it meets a directory and has the last word
  obtain ⟨d, hclear, hnone, hfree⟩ | ⟨d, a, hclear, hbefore, hafter⟩ :=
    hwork.clearArtifacts_cases hr
  · rw [hverify, Step.outcome_ensuring_of_ok hclear, Step.endState_ensuring, hclear]
    refine ⟨⟨?_, ?_⟩, ?_⟩
    · rintro ⟨horder, -⟩
      refine ⟨hfree, ?_⟩
      intro e h
      obtain ⟨d, rfl⟩ := horder e h
      exact ⟨(fun _ h => nomatch h), (fun h => nomatch h)⟩
    · rintro ⟨-, hanswered⟩
      refine ⟨?_, hnone⟩
      intro e h
      obtain ⟨hclock, hnul⟩ := hanswered e h
      -- what else the round trip could end in is excluded on the other side
      cases hfails.of_outcome h with
      | defect d => exact ⟨d, rfl⟩
      | clock k => exact absurd rfl (hclock k)
      | nul => exact absurd rfl hnul
    · rintro ⟨a, hblocked⟩
      exact absurd hblocked (hfree a)
  · rw [hverify, Step.ensuring_of_error hclear]
    refine ⟨⟨?_, ?_⟩, fun _ => ⟨a, rfl, hafter⟩⟩
    · rintro ⟨horder, -⟩
      obtain ⟨_, h⟩ := horder _ rfl
      cases h
    · rintro ⟨hfree, -⟩
      exact absurd hbefore (hfree a)

/-- An export that makes a directory under the name of its document. -/
def Trial.nesting : World :=
  world [.idle, { printing "{}\n" with effects := [.makeDir ⟨.here, ["expected.json"]⟩] }]

/-- The directory cannot be removed: it stays, and the refusal takes the place of the
    defect that the document cannot be written. -/
theorem directory_for_artifact_is_left :
    ∃ (probe : Invocation) (w₁ : World),
      (Trial.compiler.probe Trial.subject.inputs Trial.dir).run Trial.nesting = .ok probe w₁
        ∧ outcome (roundTrip Trial.subject Trial.compiler Trial.diff Trial.dir w₁)
          = .error (.defect (.notWritten (Artifact.expected.path Trial.dir)
            ⟨.isDirectory, [(Artifact.expected.path Trial.dir).text]⟩))
        ∧ ∃ a : Artifact,
          outcome (verify Trial.subject Trial.compiler Trial.diff Trial.dir Trial.nesting)
              = .error (.path (.refused .isDirectory (a.path Trial.dir)))
            ∧ Blocked (endState (verify Trial.subject Trial.compiler Trial.diff Trial.dir
                Trial.nesting)).disk ["w"] a := by
  have hgood : (match (Trial.compiler.probe Trial.subject.inputs Trial.dir).run Trial.nesting with
      | .ok i w₁ => decide (i.timedOut = false ∧ i.exitCode = 0
          ∧ w₁.disk = Trial.nesting.disk ∧ w₁.cwd = Trial.nesting.cwd)
      | .error _ _ => false) = true := by decide +kernel
  -- what the round trip comes to, from where the probe ends
  have hround : outcome (roundTrip Trial.subject Trial.compiler Trial.diff Trial.dir
          (endState ((Trial.compiler.probe Trial.subject.inputs Trial.dir).run Trial.nesting)))
        = .error (.defect (.notWritten (Artifact.expected.path Trial.dir)
          ⟨.isDirectory, [(Artifact.expected.path Trial.dir).text]⟩))
      ∧ (endState (roundTrip Trial.subject Trial.compiler Trial.diff Trial.dir
          (endState ((Trial.compiler.probe Trial.subject.inputs Trial.dir).run
            Trial.nesting)))).disk.get? (["w"] ++ [Artifact.expected.name]) = some .dir :=
    ⟨by rfl, by decide +kernel⟩
  cases hprobe : (Trial.compiler.probe Trial.subject.inputs Trial.dir).run Trial.nesting with
  | error e w₁ =>
      rw [hprobe] at hgood
      cases hgood
  | ok probe w₁ =>
      rw [hprobe] at hgood hround
      obtain ⟨ht, he, hdisk, hcwd⟩ := of_decide_eq_true hgood
      have hv := Trial.vacant Trial.nesting.script
      have hguard : guardArtifacts Trial.dir w₁ = .ok () w₁ :=
        Holds.guardArtifacts_eq hv hcwd (by rw [hdisk]; exact hv.holds)
      have hplain : Trial.disk.Plain ["w"] := ⟨by decide, by decide⟩
      have heffects : ∀ p ∈ Trial.nesting.script, ∀ e ∈ p.effects,
          ∃ n, e.GoesThrough Trial.nesting.disk (Trial.nesting.cwd / Trial.dir) ["w"] n := by
        refine List.forall_mem_cons.mpr ⟨fun e he => (nomatch he), List.forall_mem_cons.mpr
          ⟨fun e he => ?_, fun p hp => (nomatch hp)⟩⟩
        obtain rfl := List.mem_singleton.mp he
        exact ⟨"expected.json", .of_plain _ [] hplain rfl rfl (by decide)⟩
      obtain ⟨-, hleft⟩ := finishes_clean_iff Trial.subject Trial.compiler Trial.split_diff
        hv.reaches hv.linkFree heffects hprobe ht he hguard
      exact ⟨probe, w₁, rfl, hround.1, hleft ⟨.expected, hround.2⟩⟩

end Verification

end RoundTrip
