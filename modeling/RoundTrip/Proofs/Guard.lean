import RoundTrip.Proofs.Resolution
import RoundTrip.Proofs.Verdict
import RoundTrip.Proofs.Walk

/-! # Artifacts that are there already

    After a good probe the verification makes sure that nothing stands under the
    names of the artifacts.  It asks whether the paths lead to anything, and a link
    that leads to nothing passes for an empty name: **`refuses_artifact_iff`**.  What
    is written later goes through such a link to another place.

    A name is occupied, free, or asked for by a path that is too long.  The guard ends at
    the first one that is not free (`GuardEnd`), so the three cases exclude each other. -/

namespace RoundTrip

theorem Artifact.name_path (a : Artifact) (dir : Path) : (a.path dir).name = a.name := by
  have hnames : (a.path dir).names = dir.names ++ [a.name] := by rw [path_eq]
  exact Path.name_of_names hnames

namespace Disk

variable {d : Disk} {cwd p : Path} {aim : Aim} {node : Node}

/-- An entry that is no link is what its path leads to. -/
theorem status_target_of_entry (hlast : (p.absoluteNames cwd).getLast? ≠ some "")
    (h : d.status cwd .entry p = .ok node) (hnode : ∀ target, node ≠ .link target) :
    d.status cwd .target p = .ok node := by
  obtain ⟨q, hq, hg⟩ := status_eq_ok_iff.mp h
  obtain ⟨hsize, hlead⟩ := find_eq_ok_iff.mp hq
  refine status_eq_ok_iff.mpr ⟨q, find_eq_ok_iff.mpr ⟨hsize, hlead.of_entry hlast ?_ .target⟩, hg⟩
  intro target hl
  rw [hg] at hl
  exact hnode target (Option.some.inj hl)

/-- Where a path leads to something, there is an entry. -/
theorem exists_status_entry (h : d.status cwd .target p = .ok node) :
    ∃ entry, d.status cwd .entry p = .ok entry := by
  obtain ⟨q, hq, hg⟩ := status_eq_ok_iff.mp h
  obtain ⟨hsize, hlead⟩ := find_eq_ok_iff.mp hq
  obtain ⟨r, hr, hsome⟩ := hlead.exists_entry (by rw [hg]; rfl)
  obtain ⟨entry, hentry⟩ := Option.isSome_iff_exists.mp hsome
  exact ⟨entry, status_eq_ok_iff.mpr ⟨r, find_eq_ok_iff.mpr ⟨hsize, hr⟩, hentry⟩⟩

/-- What has a status exists. -/
theorem pathExists_of_status (hnul : p.holdsNul = false) (h : d.status cwd .target p = .ok node) :
    d.pathExists cwd p = .ok true := by
  unfold pathExists node?
  rw [if_neg (by simp [hnul]), h]
  rfl

/-- What is said to be absent does not. -/
theorem pathExists_of_absent {e : Errno} (hnul : p.holdsNul = false)
    (h : d.status cwd .target p = .error e) (he : e.saysAbsent = true) :
    d.pathExists cwd p = .ok false := by
  unfold pathExists node?
  simp only [hnul, Bool.false_eq_true, if_false, h, he, if_true]
  rfl

/-- Any other refusal is handed on. -/
theorem pathExists_of_refused {e : Errno} (hnul : p.holdsNul = false)
    (h : d.status cwd .target p = .error e) (he : e.saysAbsent = false) :
    d.pathExists cwd p = .error (.refused e p) := by
  unfold pathExists node?
  simp only [hnul, Bool.false_eq_true, if_false, h, he]
  rfl

end Disk

namespace Verification

open Step (endState outcome)

variable {w w₁ : World} {dir : Path} {a : Artifact}

/-! ## The guard -/

/-- Something stands under the name of an artifact, and it is no link to nothing. -/
def Occupied (w : World) (dir : Path) (a : Artifact) : Prop :=
  ∃ node, w.disk.status w.cwd .entry (a.path dir) = .ok node
    ∧ ∀ target, node = .link target →
      ∃ other, w.disk.status w.cwd .target (a.path dir) = .ok other

/-- The look-up of an artifact is refused: its path, or a name that it leads through, is longer
    than the system takes. -/
def Overlong (w : World) (dir : Path) (a : Artifact) : Prop :=
  w.disk.status w.cwd .target (a.path dir) = .error .nameTooLong

/-- The name of an artifact is free, as far as the guard can see. -/
def Free (w : World) (dir : Path) (a : Artifact) : Prop :=
  ¬Occupied w dir a ∧ ¬Overlong w dir a

/-- A name is occupied if the path of the artifact has a status, links followed. -/
theorem occupied_iff : Occupied w dir a
    ↔ ∃ node, w.disk.status w.cwd .target (a.path dir) = .ok node := by
  constructor
  · rintro ⟨node, hentry, hlink⟩
    by_cases hnode : ∃ target, node = .link target
    · obtain ⟨target, htarget⟩ := hnode
      exact hlink target htarget
    · have hlast : ((a.path dir).absoluteNames w.cwd).getLast? ≠ some "" := by
        rw [Artifact.absoluteNames_path, List.getLast?_concat]
        simpa using a.name_ne_empty
      exact ⟨node, Disk.status_target_of_entry hlast hentry
        fun target h => hnode ⟨target, h⟩⟩
  · rintro ⟨node, hnode⟩
    obtain ⟨entry, hentry⟩ := Disk.exists_status_entry hnode
    exact ⟨entry, hentry, fun _ _ => ⟨node, hnode⟩⟩

theorem Occupied.not_overlong (h : Occupied w dir a) : ¬Overlong w dir a := by
  obtain ⟨node, hnode⟩ := occupied_iff.mp h
  exact fun hlong => nomatch hnode.symm.trans hlong

/-- What the guard comes to at one artifact.  It changes nothing. -/
theorem refuseExisting_cases (hnul : dir.holdsNul = false) (a : Artifact) :
    (Occupied w dir a ∧ Workspace.refuseExisting (a.path dir) w
        = .error (.defect (.artifactExists a.name)) w)
      ∨ (Overlong w dir a ∧ Workspace.refuseExisting (a.path dir) w
        = .error (.path (.refused .nameTooLong (a.path dir))) w)
      ∨ (Free w dir a ∧ Workspace.refuseExisting (a.path dir) w = .ok () w) := by
  have hnul' : (a.path dir).holdsNul = false := by rw [Artifact.holdsNul_path, hnul]
  have hguard : ∀ r, w.disk.pathExists w.cwd (a.path dir) = r →
      Workspace.refuseExisting (a.path dir) w = (do
        let isThere ← Step.ofExcept Fault.path r
        if isThere then throw (.defect (.artifactExists a.name))
        else pure () : Action World _) w := by
    rintro _ rfl
    unfold Workspace.refuseExisting
    rw [Step.bind_ok (Step.get_apply w), a.name_path dir]
  cases hstatus : w.disk.status w.cwd .target (a.path dir) with
  | ok node =>
      rw [hguard _ (Disk.pathExists_of_status hnul' hstatus)]
      exact Or.inl ⟨occupied_iff.mpr ⟨node, hstatus⟩, rfl⟩
  | error e =>
      -- a look-up that is refused for a length is handed on; any other says that nothing is
      -- there
      obtain rfl | habsent := Disk.saysAbsent_of_status hstatus
      · rw [hguard _ (Disk.pathExists_of_refused hnul' hstatus rfl)]
        exact Or.inr (Or.inl ⟨hstatus, rfl⟩)
      · rw [hguard _ (Disk.pathExists_of_absent hnul' hstatus habsent)]
        refine Or.inr (Or.inr ⟨⟨fun h => ?_, fun h => ?_⟩, rfl⟩)
        · obtain ⟨node, hnode⟩ := occupied_iff.mp h
          cases hstatus.symm.trans hnode
        · cases hstatus.symm.trans h
          cases habsent

/-- How the guard ends over a list of artifacts: at the first one whose name is not free. -/
inductive GuardEnd (w : World) (dir : Path) (as : List Artifact) :
    EStateM.Result Fault World PUnit → Prop where
  | passed (hfree : ∀ a ∈ as, Free w dir a) : GuardEnd w dir as (.ok ⟨⟩ w)
  | occupied {early late : List Artifact} {a : Artifact} (hsplit : as = early ++ a :: late)
      (hearly : ∀ b ∈ early, Free w dir b) (h : Occupied w dir a) :
      GuardEnd w dir as (.error (.defect (.artifactExists a.name)) w)
  | overlong {early late : List Artifact} {a : Artifact} (hsplit : as = early ++ a :: late)
      (hearly : ∀ b ∈ early, Free w dir b) (h : Overlong w dir a) :
      GuardEnd w dir as (.error (.path (.refused .nameTooLong (a.path dir))) w)

/-- The guard stops at the first artifact whose name is not free, by induction on the list. -/
theorem guardEnd (hnul : dir.holdsNul = false) (as : List Artifact) :
    GuardEnd w dir as (as.forM (fun a => Workspace.refuseExisting (a.path dir)) w) := by
  induction as with
  | nil => exact .passed fun a ha => nomatch ha
  | cons a as ih =>
      have hcons : (a :: as).forM (fun a => Workspace.refuseExisting (a.path dir))
          = (Workspace.refuseExisting (a.path dir)
            >>= fun _ => as.forM fun a => Workspace.refuseExisting (a.path dir)) := rfl
      rw [hcons]
      obtain ⟨h, hrefuse⟩ | ⟨h, hrefuse⟩ | ⟨hfree, hpass⟩ := refuseExisting_cases hnul a
      · rw [Step.bind_error hrefuse]
        exact .occupied (List.nil_append _).symm (fun b hb => nomatch hb) h
      · rw [Step.bind_error hrefuse]
        exact .overlong (List.nil_append _).symm (fun b hb => nomatch hb) h
      · rw [Step.bind_ok hpass]
        generalize as.forM (fun a => Workspace.refuseExisting (a.path dir)) w = r at ih
        -- the name is free, so the end is that of the rest, with one free name more in front
        cases ih with
        | passed hrest => exact .passed (List.forall_mem_cons.mpr ⟨hfree, hrest⟩)
        | occupied hsplit hearly h =>
            exact .occupied (congrArg (a :: ·) hsplit) (List.forall_mem_cons.mpr ⟨hfree, hearly⟩) h
        | overlong hsplit hearly h =>
            exact .overlong (congrArg (a :: ·) hsplit) (List.forall_mem_cons.mpr ⟨hfree, hearly⟩) h

/-- Of two elements of a list, one comes first. -/
theorem first_of_splits {α : Type} {early early' late late' : List α} {a a' : α}
    (h : early ++ a :: late = early' ++ a' :: late') : a = a' ∨ a' ∈ early ∨ a ∈ early' := by
  obtain ⟨xs, rfl, hxs⟩ | ⟨xs, rfl, hxs⟩ := List.append_eq_append_iff.mp h
  · cases xs with
    | nil => exact Or.inl (List.cons.inj hxs).1
    | cons x xs =>
        obtain ⟨rfl, -⟩ := List.cons.inj hxs
        exact Or.inr (Or.inr (by simp))
  · cases xs with
    | nil => exact Or.inl (List.cons.inj hxs).1.symm
    | cons x xs =>
        obtain ⟨rfl, -⟩ := List.cons.inj hxs
        exact Or.inr (Or.inl (by simp))

/-- A round trip starts a process. -/
theorem spawns_roundTrip (c : Case) (compiler : Compiler) (t : Comparator) (dir : Path)
    (w : World) :
    w.spawns.length < (endState (Step.ensuring (roundTrip c compiler t dir)
      (Workspace.clearArtifacts dir) w)).spawns.length := by
  have hgrows := lasts_grows (w.spawns.length + 1) dir
  rw [Step.endState_ensuring]
  exact hgrows.keeps_clearArtifacts _ (hgrows.endState_roundTrip
    (allCommands_true c compiler t dir) (Nat.le_of_eq (Command.length_run _ w).symm))

/-- After a good probe the verification goes on with the guard. -/
theorem verify_of_good_probe {probe : Invocation} (c : Case) (compiler : Compiler) (t : Comparator)
    (hprobe : (compiler.probe c.inputs dir).run w = .ok probe w₁) (ht : probe.timedOut = false)
    (he : probe.exitCode = 0) :
    verify c compiler t dir w = (guardArtifacts dir >>= fun _ =>
      Step.ensuring (roundTrip c compiler t dir) (Workspace.clearArtifacts dir)) w₁ := by
  show ((compiler.probe c.inputs dir).run >>= afterProbe c compiler t dir) w = _
  rw [Step.bind_ok hprobe, afterProbe, if_neg (by simp [ht]), if_neg (by simp [he])]

/-- **When the verification refuses to overwrite.**  After a good probe it goes by the first
    artifact whose name is not free, and leaves the world exactly as the probe left it: it ends in
    a defect if something stands there that is no link to nothing, and with the refusal of the
    system if the look-up is too long.  Where all names are free it goes on as if nothing were
    there, links to nothing included. -/
theorem refuses_artifact_iff {probe : Invocation} (c : Case) (compiler : Compiler) (t : Comparator)
    (hprobe : (compiler.probe c.inputs dir).run w = .ok probe w₁) (ht : probe.timedOut = false)
    (he : probe.exitCode = 0) (hnul : dir.holdsNul = false) :
    ((∃ a : Artifact, verify c compiler t dir w = .error (.defect (.artifactExists a.name)) w₁)
      ↔ ∃ early a late, Artifact.all = early ++ a :: late ∧ Occupied w₁ dir a
        ∧ ∀ b ∈ early, ¬Overlong w₁ dir b)
      ∧ ((∃ a : Artifact, verify c compiler t dir w
          = .error (.path (.refused .nameTooLong (a.path dir))) w₁)
        ↔ ∃ early a late, Artifact.all = early ++ a :: late ∧ Overlong w₁ dir a
          ∧ ∀ b ∈ early, ¬Occupied w₁ dir b)
      ∧ ((∀ a : Artifact, ¬Occupied w₁ dir a ∧ ¬Overlong w₁ dir a) →
        verify c compiler t dir w = Step.ensuring (roundTrip c compiler t dir)
          (Workspace.clearArtifacts dir) w₁) := by
  have hverify := verify_of_good_probe c compiler t hprobe ht he
  have hend : GuardEnd w₁ dir Artifact.all (guardArtifacts dir w₁) := guardEnd hnul Artifact.all
  generalize hguard : guardArtifacts dir w₁ = r at hend
  cases hend with
  | passed hfree =>
      rw [Step.bind_ok hguard] at hverify
      -- a refusal starts nothing, and a round trip does
      have hgoes : ∀ e, verify c compiler t dir w ≠ .error e w₁ := by
        intro e hrefuses
        have hstarts := spawns_roundTrip c compiler t dir w₁
        rw [← hverify, hrefuses] at hstarts
        exact absurd hstarts (Nat.lt_irrefl _)
      refine ⟨⟨fun ⟨a, h⟩ => absurd h (hgoes _), ?_⟩, ⟨fun ⟨a, h⟩ => absurd h (hgoes _), ?_⟩,
        fun _ => hverify⟩
      · rintro ⟨-, a, -, -, h, -⟩
        exact absurd h (hfree a a.mem_all).1
      · rintro ⟨-, a, -, -, h, -⟩
        exact absurd h (hfree a a.mem_all).2
  | @occupied early late a hsplit hearly hfirst =>
      rw [Step.bind_error hguard] at hverify
      refine ⟨⟨fun _ => ⟨early, a, late, hsplit, hfirst, fun b hb => (hearly b hb).2⟩,
        fun _ => ⟨a, hverify⟩⟩, ⟨?_, ?_⟩, fun h => absurd hfirst (h a).1⟩
      · rintro ⟨a', h⟩
        cases hverify.symm.trans h
      · rintro ⟨early', a', late', hsplit', h, hearly'⟩
        obtain rfl | hmem | hmem := first_of_splits (hsplit.symm.trans hsplit')
        · exact absurd h hfirst.not_overlong
        · exact absurd h (hearly a' hmem).2
        · exact absurd hfirst (hearly' a hmem)
  | @overlong early late a hsplit hearly hfirst =>
      rw [Step.bind_error hguard] at hverify
      refine ⟨⟨?_, ?_⟩, ⟨fun _ => ⟨early, a, late, hsplit, hfirst, fun b hb => (hearly b hb).1⟩,
        fun _ => ⟨a, hverify⟩⟩, fun h => absurd hfirst (h a).2⟩
      · rintro ⟨a', h⟩
        cases hverify.symm.trans h
      · rintro ⟨early', a', late', hsplit', h, hearly'⟩
        obtain rfl | hmem | hmem := first_of_splits (hsplit.symm.trans hsplit')
        · exact absurd hfirst h.not_overlong
        · exact absurd h (hearly a' hmem).1
        · exact absurd hfirst (hearly' a hmem)

/-- A directory with a link to nothing under the name of an artifact. -/
def Trial.linked : World :=
  .fresh ⟨[(["w"], .dir), (["w", "expected.json"], .link "/out.txt")]⟩ root
    [.idle, printing "{}\n", printing "{}\n", comparing]

/-- The link is not refused, and the document of the export is written through it. -/
theorem link_to_nothing_is_written_through :
    ∃ (probe : Invocation) (w₁ : World),
      (Trial.compiler.probe Trial.subject.inputs Trial.dir).run Trial.linked = .ok probe w₁
        ∧ w₁.disk.status w₁.cwd .entry (Artifact.expected.path Trial.dir)
          = .ok (.link "/out.txt")
        ∧ (∀ a : Artifact, verify Trial.subject Trial.compiler Trial.diff Trial.dir Trial.linked
          ≠ .error (.defect (.artifactExists a.name)) w₁)
        ∧ (endState (verify Trial.subject Trial.compiler Trial.diff Trial.dir
            Trial.linked)).disk.get? ["out.txt"] = some (.file (Text.encode "{}\n")) := by
  have hgood : (match (Trial.compiler.probe Trial.subject.inputs Trial.dir).run Trial.linked with
      | .ok i w₁ => decide (i.timedOut = false ∧ i.exitCode = 0
          ∧ w₁.disk = Trial.linked.disk ∧ w₁.cwd = Trial.linked.cwd)
      | .error _ _ => false) = true := by decide +kernel
  cases hprobe : (Trial.compiler.probe Trial.subject.inputs Trial.dir).run Trial.linked with
  | error e w₁ =>
      rw [hprobe] at hgood
      cases hgood
  | ok probe w₁ =>
      rw [hprobe] at hgood
      obtain ⟨ht, he, hdisk, hcwd⟩ := of_decide_eq_true hgood
      have habsent : ∀ a : Artifact,
          w₁.disk.status w₁.cwd .target (a.path Trial.dir) = .error .noEntry := by
        rw [hdisk, hcwd]
        intro a
        cases a <;> rfl
      obtain ⟨hiff, -⟩ := refuses_artifact_iff Trial.subject Trial.compiler Trial.diff hprobe ht he
        (by decide)
      refine ⟨probe, w₁, rfl, by rw [hdisk, hcwd]; rfl, fun a hrefuses => ?_, by decide +kernel⟩
      obtain ⟨-, b, -, -, hoccupied, -⟩ := hiff.mp ⟨a, hrefuses⟩
      -- only the link stands there, and it leads to nothing
      obtain ⟨node, hnode⟩ := occupied_iff.mp hoccupied
      rw [habsent b] at hnode
      cases hnode

end Verification

end RoundTrip
