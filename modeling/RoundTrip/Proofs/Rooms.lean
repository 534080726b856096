import RoundTrip.Proofs.Hidden
import RoundTrip.Proofs.Resolved

/-! # Rooms for cases

    Whatever name a case's workspace gets, the case finds the same there.  A `Room` is a
    directory that a run may make for a case; it is `Tidy` as long as it holds artifacts
    and nothing else, and the disk around it is untouched.  In any two such rooms the
    artifacts are found under their paths (`Room.contentOf_artifact`).

    Lookups depend on a disk only by what stands where (`Disk.find_congr`), so a disk that
    has been restored gives the next case its room as the first disk would have:
    **`Sight.enter`**. -/

namespace RoundTrip

open Step (endState)

/-! ## Lookups see nothing but what stands where -/

namespace Disk

variable {d d' : Disk} {aim : Aim}

/-- A look-up depends on a disk only by what stands at its places. -/
theorem find_congr (h : ∀ q, d'.get? q = d.get? q) (cwd p : Path) :
    d'.find cwd aim p = d.find cwd aim p := find_of_hollow (fun q => by rw [h]) cwd p aim

/-- One more name behind a directory, with nothing behind it. -/
theorem Leads.append_missing {links : Nat} {here q : Place} {names : List String} {n : String}
    (h : Leads d .target links here names q) (hq : d.get? q = some .dir) (haim : aim ≠ .newFile)
    (hn : Enterable d aim q n []) (hnone : d.get? (q ++ [n]) = none) :
    Leads d aim links here (names ++ [n]) (q ++ [n]) := by
  generalize htarget : Aim.target = a at h
  induction h with
  | stop => exact .missing hn hnone
  | skip isDir hskip _ ih => exact .skip isDir hskip (ih hq hn hnone)
  | up isDir _ ih => exact .up isDir (ih hq hn hnone)
  | missing _ hmissing =>
      rw [hmissing] at hq
      cases hq
  | link _ _ hentry =>
      rw [← htarget] at hentry
      cases hentry
  | follow henter hlink _ _ ih =>
      refine .follow (henter.other haim) hlink (by simp) ?_
      show Leads d aim _ _ (Path.splitSlashes _ ++ (_ ++ [n])) _
      rw [← List.append_assoc]
      exact ih hq hn hnone
  | enter henter hstands hnolink _ ih =>
      exact .enter (henter.other haim) hstands hnolink (ih hq hn hnone)

end Disk

/-! ## A workspace with nothing but artifacts -/

/-- The disk `d₀` with a workspace at a place, in which there are artifacts and nothing else. -/
structure Tidy (d₀ : Disk) (place : Place) (k : Kept) (d : Disk) : Prop where
  holds : Holds (d₀.put place .dir) place k d
  others : ∀ n rest, (∀ a : Artifact, n :: rest ≠ [a.name]) → d.get? (place ++ n :: rest) = none

variable {d₀ d₀' d : Disk} {cwd dir : Path} {place : Place} {k : Kept}

/-- A new workspace is tidy with nothing kept in it. -/
theorem Tidy.start (hs : Site d₀ cwd dir place) :
    Tidy d₀ place .nothing (d₀.put place .dir) := by
  have hbelow : ∀ n rest, (d₀.put place .dir).get? (place ++ n :: rest) = none := by
    intro n rest
    rw [hs.get?_put, if_neg (by simp), hs.free]
  exact ⟨⟨fun _ _ => rfl, hs.linkFree, fun a => hbelow a.name []⟩, fun n rest _ => hbelow n rest⟩

/-- Tidiness is told by what stands at the places of the disk before. -/
theorem Tidy.congr (h : Tidy d₀ place k d) (hne : place ≠ [])
    (hsame : ∀ q, d₀'.get? q = d₀.get? q) : Tidy d₀' place k d := by
  refine ⟨⟨fun q hq => ?_, h.holds.linkFree, h.holds.kept⟩, h.others⟩
  rw [h.holds.outside q hq, Disk.get?_put _ _ _ _ hne, Disk.get?_put _ _ _ _ hne, hsame]

/-- To store an artifact keeps a workspace tidy. -/
theorem Tidy.put (h : Tidy d₀ place k d) (a : Artifact) (content : Bytes) :
    Tidy d₀ place (k.set a (some content)) (d.put (place ++ [a.name]) (.file content)) := by
  refine ⟨h.holds.put a content, fun n rest hne => ?_⟩
  rw [Disk.get?_put _ _ _ _ (by simp), if_neg, h.others n rest hne]
  intro heq
  exact hne a (List.append_cancel_left heq)

/-- A workspace that could be made is vacant, if there is room for the paths of the
    artifacts. -/
theorem Site.vacant (hs : Site d₀ cwd dir place)
    (hshort : ∀ a : Artifact, (a.path dir).text.utf8ByteSize ≤ Disk.textLimit) :
    Vacant (d₀.put place .dir) cwd dir place where
  noNul := hs.noNul
  leads := by
    intro a
    refine Disk.find_eq_ok_iff.mpr ⟨hshort a, ?_⟩
    rw [Artifact.absoluteNames_path]
    have hdir : ((d₀.put place .dir).eraseBelow place).get? place = some .dir := by
      rw [Disk.get?_eraseBelow _ _ _ hs.ne_nil, if_neg (by simp), hs.get?_put_place]
    have hnone : ((d₀.put place .dir).eraseBelow place).get? (place ++ [a.name]) = none := by
      rw [Disk.get?_eraseBelow _ _ _ (by simp), if_pos (by simp)]
    refine (Disk.locate_eq_ok_iff.mp hs.locate_eq).append_missing hdir (by decide) ?_ hnone
    exact ⟨hdir, a.isName_name, a.name_ne_dotdot, by simp, by cases a <;> decide⟩
  linkFree := hs.linkFree
  empty := fun a => by rw [hs.get?_put, if_neg (by simp), hs.free]

/-! ## Two rooms -/

/-- A directory that a run may make for a case, with room for the artifacts in it. -/
structure Room (w₀ : World) (dir : Path) (place : Place) : Prop where
  numbered : ∃ n, Workspace.numbered w₀.tempDir n = dir
  isAbsolute : dir.isAbsolute = true
  site : Site w₀.disk w₀.cwd dir place
  short : ∀ a : Artifact, (a.path dir).text.utf8ByteSize ≤ Disk.textLimit

variable {w₀ : World}

theorem Room.vacant (h : Room w₀ dir place) :
    Vacant (w₀.disk.put place .dir) w₀.cwd dir place := h.site.vacant h.short

/-- The text of an artifact's path leads to the artifact, from wherever it is taken. -/
theorem Room.div_text (h : Room w₀ dir place) (a : Artifact) :
    dir / (a.path dir).text = a.path dir := by
  obtain ⟨n, hn⟩ := h.numbered
  have hdir : dir.Canonical := hn ▸ Path.canonical_ofString _
  have habsolute : (a.path dir).isAbsolute = true := by
    rw [Artifact.path_eq]
    exact h.isAbsolute
  have hcanonical : (a.path dir).Canonical := hdir.div a.name
  show dir.append (Path.ofString (a.path dir).text) = a.path dir
  rw [Path.ofString_text hcanonical, Path.append, if_pos habsolute]

/-- The content of an artifact, looked up by its text from the workspace, is what is kept of
    it. -/
theorem Room.contentOf_artifact (h : Room w₀ dir place)
    (hholds : Holds (w₀.disk.put place .dir) place k d) (a : Artifact) :
    (d.contentOf w₀.cwd (dir / (a.path dir).text)).toOption = k a := by
  have hnul : Disk.checkNul (a.path dir) = .ok () := by
    unfold Disk.checkNul
    rw [Artifact.holdsNul_path, h.site.noNul]
    rfl
  rw [h.div_text, Disk.contentOf, hnul]
  show (Disk.refuse (a.path dir) (d.status w₀.cwd .target (a.path dir) >>= _)).toOption = k a
  rw [hholds.status_artifact h.vacant]
  cases k a <;> rfl

/-- A word under which the same is found in every room that holds the same artifacts and
    nothing else. -/
def FoundAlike (w₀ : World) (word : String) : Prop :=
  ∀ (k : Kept) (dir : Path) (place : Place) (d : Disk) (dir' : Path) (place' : Place) (d' : Disk),
    Room w₀ dir place → Tidy w₀.disk place k d → Room w₀ dir' place' → Tidy w₀.disk place' k d' →
    (d.contentOf w₀.cwd (dir / word)).toOption = (d'.contentOf w₀.cwd (dir' / word)).toOption

/-- An artifact is found alike where it is asked for by its name. -/
theorem foundAlike_artifact (w₀ : World) (a : Artifact) : FoundAlike w₀ a.name := by
  have hcontent : ∀ {k : Kept} {dir : Path} {place : Place} {d : Disk}, Room w₀ dir place →
      Tidy w₀.disk place k d → (d.contentOf w₀.cwd (dir / a.name)).toOption = k a := by
    intro k dir place d hroom htidy
    rw [← hroom.contentOf_artifact htidy.holds a, hroom.div_text]
    rfl
  intro k dir place d dir' place' d' hroom htidy hroom' htidy'
  rw [hcontent hroom htidy, hcontent hroom' htidy']

/-! ## Worlds that look alike -/

/-- A world that looks to the next case as the first world did, with so many names for
    workspaces tried. -/
structure Sight (w₀ : World) (count : Nat) (u : World) : Prop where
  cwd_eq : u.cwd = w₀.cwd
  tempDir_eq : u.tempDir = w₀.tempDir
  count_eq : u.workspaceCount = count
  disk_eq : ∀ q, u.disk.get? q = w₀.disk.get? q

/-- What a directory of workspaces must be like for cases to be kept apart. -/
structure World.Settled (w : World) : Prop where
  closed : w.disk.Closed
  cwd : ".." ∉ w.cwd.names
  isAbsolute : w.tempDir.isAbsolute = true
  tempDir : ".." ∉ (Path.ofString w.tempDir.text).names

/-- On disks that agree everywhere the same directory is made, or refused for the same cause.
    -/
theorem Disk.makeDir_congr {d' : Disk} (hsame : ∀ q, d'.get? q = d.get? q) (cwd p : Path) :
    (∃ e, d.makeDir cwd p = .error e ∧ d'.makeDir cwd p = .error e)
      ∨ ∃ q, d.find cwd .entry p = .ok q ∧ d.get? q = none
        ∧ d.makeDir cwd p = .ok (d.put q .dir) ∧ d'.makeDir cwd p = .ok (d'.put q .dir) := by
  unfold makeDir
  rw [find_congr hsame]
  cases hfind : d.find cwd .entry p with
  | error e => exact Or.inl ⟨e, rfl, rfl⟩
  | ok q =>
      simp only [hsame]
      cases hq : d.get? q with
      | some n => exact Or.inl ⟨.alreadyExists, rfl, rfl⟩
      | none => exact Or.inr ⟨q, rfl, hq, rfl, rfl⟩

namespace Sight

open Workspace (defaultStem nameTries tryNext create enter numbered)

variable {u w' : World} {count : Nat}

/-- A directory that was made for a case, where nothing stood before. -/
structure New (w₀ : World) (dir : Path) (place : Place) : Prop where
  numbered : ∃ n, Workspace.numbered w₀.tempDir n = dir
  noNul : dir.holdsNul = false
  leads : w₀.disk.find w₀.cwd .entry dir = .ok place
  free : w₀.disk.get? place = none

/-- A name that is tried in one world comes to the same in the other. -/
theorem tryNext (hu : Sight w₀ count u) {found : Option Path}
    (h : Workspace.tryNext defaultStem { w₀ with workspaceCount := count } = .ok found w') :
    found = none ∧ w' = { w₀ with workspaceCount := count + 1 }
        ∧ Workspace.tryNext defaultStem u = .ok none { u with workspaceCount := count + 1 }
      ∨ ∃ dir place, found = some dir ∧ New w₀ dir place ∧ w'.workspaceCount = count + 1
        ∧ Workspace.tryNext defaultStem u
          = .ok (some dir)
            { u with disk := u.disk.put place .dir, workspaceCount := count + 1 } := by
  have hset : ∀ w : World, (set { w with workspaceCount := w.workspaceCount + 1 }
      : Action World PUnit) w = .ok ⟨⟩ { w with workspaceCount := w.workspaceCount + 1 } :=
    fun _ => rfl
  unfold Workspace.tryNext at h ⊢
  rw [Step.bind_ok (Step.get_apply _), Step.bind_ok (hset _)] at h
  rw [Step.bind_ok (Step.get_apply _), Step.bind_ok (hset _), hu.tempDir_eq, hu.count_eq, hu.cwd_eq]
  dsimp only at h
  split at h
  · cases h
  rename_i hnul
  split at h
  · cases h
  rename_i htext
  rw [if_neg hnul, if_neg htext]
  -- the disks agree at every place, so the name is free in both or in neither
  obtain ⟨e, he, he'⟩ | ⟨q, hfind, hnone, hmake, hmake'⟩ := Disk.makeDir_congr hu.disk_eq w₀.cwd
    (Path.ofString (Workspace.nameText w₀.tempDir (defaultStem ++ toString count)))
  · rw [he] at h
    rw [he']
    cases e with
    | alreadyExists =>
        cases h
        exact Or.inl ⟨rfl, rfl, rfl⟩
    | _ => cases h
  · rw [hmake] at h
    rw [hmake']
    cases h
    exact Or.inr ⟨_, q, rfl, ⟨⟨count, rfl⟩, eq_false_of_ne_true hnul, hfind, hnone⟩, rfl, rfl⟩

/-- The first free name is the same in both, by induction on the tries. -/
theorem create {tries : Nat} {dir : Path} (hu : Sight w₀ count u)
    (h : Workspace.create defaultStem tries { w₀ with workspaceCount := count } = .ok dir w') :
    ∃ place, New w₀ dir place ∧ Workspace.create defaultStem tries u
      = .ok dir { u with
        disk := u.disk.put place .dir
        workspaceCount := w'.workspaceCount } := by
  induction tries generalizing u count with
  | zero => cases h
  | succ tries ih =>
      rw [Workspace.create] at h ⊢
      obtain ⟨found, w₁, htry, h⟩ := Step.bind_eq_ok_iff.mp h
      obtain ⟨rfl, rfl, htry'⟩ | ⟨dir', place, rfl, hnew, hcount, htry'⟩ := hu.tryNext htry
      · rw [Step.bind_ok htry']
        exact ih (u := { u with workspaceCount := count + 1 })
          ⟨hu.cwd_eq, hu.tempDir_eq, rfl, hu.disk_eq⟩ h
      · rw [Step.bind_ok htry']
        cases h
        exact ⟨place, hnew, by rw [hcount]; rfl⟩

end Sight

theorem Workspace.isAbsolute_numbered {temp : Path} (h : temp.isAbsolute = true) (n : Nat) :
    (numbered temp n).isAbsolute = true := by
  unfold numbered nameText
  split
  · obtain ⟨cs, hcs⟩ := List.head?_eq_some_iff.mp (Path.head?_text h)
    refine Path.isAbsolute_ofString ?_
    rw [String.toList_append, String.toList_append, hcs]
    rfl
  · rename_i hanchor
    show (Path.anchorOf _ != .here) = true
    simpa using hanchor

/-- Workspaces can be made for so many cases, one after the other, each with room for the
    artifacts in it. -/
inductive Workspace.Roomy (w : World) : (cases count : Nat) → Prop where
  | none (count : Nat) : Roomy w 0 count
  | another {cases count : Nat} {dir : Path} {w' : World}
      (made : create defaultStem nameTries { w with workspaceCount := count } = .ok dir w')
      (short : ∀ a : Artifact, (a.path dir).text.utf8ByteSize ≤ Disk.textLimit)
      (rest : Roomy w cases w'.workspaceCount) : Roomy w (cases + 1) count

/-- **A case enters a room**, whatever stands where the first world's disk had nothing else. -/
theorem Sight.enter {u w' : World} {count : Nat} {dir : Path} (hu : Sight w₀ count u)
    (hw : w₀.Settled)
    (made : Workspace.create Workspace.defaultStem Workspace.nameTries
      { w₀ with workspaceCount := count } = .ok dir w')
    (short : ∀ a : Artifact, (a.path dir).text.utf8ByteSize ≤ Disk.textLimit) :
    ∃ place stderr, Room w₀ dir place ∧ Tidy w₀.disk place .nothing (u.disk.put place .dir)
      ∧ Workspace.enter Workspace.defaultStem u = .ok dir { u with
        disk := u.disk.put place .dir
        workspaceCount := w'.workspaceCount
        stderr := stderr } := by
  obtain ⟨place, hnew, hcreate⟩ := hu.create made
  obtain ⟨n, hn⟩ := hnew.numbered
  have hsite : Site w₀.disk w₀.cwd dir place :=
    Site.of_create hw.closed hw.cwd hw.tempDir hn hnew.noNul hnew.leads hnew.free
  -- the same site on the other disk, which may list its entries in another order
  have hsite' : Site u.disk w₀.cwd dir place :=
    Site.of_create (hw.closed.congr hu.disk_eq) hw.cwd hw.tempDir hn hnew.noNul
      (by rw [Disk.find_congr hu.disk_eq]; exact hnew.leads) (by rw [hu.disk_eq]; exact hnew.free)
  obtain ⟨stderr, hlog⟩ := World.log_apply .workspace ("workspace created: " ++ dir.text)
    { u with disk := u.disk.put place .dir, workspaceCount := w'.workspaceCount }
  refine ⟨place, stderr,
    ⟨⟨n, hn⟩, hn ▸ Workspace.isAbsolute_numbered hw.isAbsolute n, hsite, short⟩,
    (Tidy.start hsite').congr hsite.ne_nil fun q => (hu.disk_eq q).symm, ?_⟩
  unfold Workspace.enter
  rw [Step.bind_ok hcreate, Step.bind_ok hlog]
  rfl

end RoundTrip
