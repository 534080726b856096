import RoundTrip.Case.Verification
import RoundTrip.Proofs.Confinement
import RoundTrip.Proofs.Resolution

/-! # The artifacts in the directory of a case

    A directory is `Vacant` if a case can be verified in it: its path leads to it
    whatever it contains, no link is in it, and no artifact.  `Holds` says what
    has become of the disk since: nothing outside the directory has changed, and
    under the names of the artifacts stands what has been kept, and nothing else.

    `Reaches` is the first part of being vacant, the one about the path: as long as a
    disk is `Confined` to the directory, every look-up of an artifact leads to its entry.
    Effects on other entries keep `Holds` (`Holds.effects`), and each step that
    the verification takes between its processes is an equation under it:
    `store_eq`, `guardArtifacts_eq`, `clearArtifacts_eq` and `present_eq`. -/

namespace RoundTrip

/-! ## Paths of artifacts -/

namespace Artifact

/-- An artifact is one name below its directory. -/
theorem path_eq (a : Artifact) (dir : Path) : a.path dir = ⟨dir.anchor, dir.names ++ [a.name]⟩ := by
  have h : Path.ofString a.name = ⟨.here, [a.name]⟩ := by cases a <;> rfl
  show dir.append (Path.ofString a.name) = _
  rw [h]
  rfl

theorem isName_name (a : Artifact) : Path.isName a.name = true := by cases a <;> decide

theorem name_ne_dotdot (a : Artifact) : a.name ≠ ".." := by cases a <;> decide

theorem name_ne_empty (a : Artifact) : a.name ≠ "" := by cases a <;> decide

/-- Artifacts are told apart by their names. -/
theorem name_injective {a b : Artifact} (h : a.name = b.name) : a = b := by
  cases a <;> cases b <;> first | rfl | exact absurd h (by decide)

theorem mem_all (a : Artifact) : a ∈ all := by cases a <;> simp [all]

/-- A step for each artifact, one after the other. -/
theorem forM_all (f : Artifact → Action World Unit) :
    all.forM f = (f .expected >>= fun _ => f .obtained >>= fun _ => f .messages) := by
  show (f .expected >>= fun _ => f .obtained >>= fun _ => f .messages >>= fun _ => pure PUnit.unit)
    = _
  simp only [bind_pure_unit]

/-- The directory of an artifact is the one it was asked for in. -/
theorem parent_path (a : Artifact) (dir : Path) : (a.path dir).parent = dir := by
  rw [path_eq]
  simp [Path.parent]

theorem holdsNul_path (a : Artifact) (dir : Path) : (a.path dir).holdsNul = dir.holdsNul := by
  rw [path_eq]
  exact dir.holdsNul_concat (by cases a <;> decide)

/-- The name of an artifact comes last in its absolute path. -/
theorem absoluteNames_path (a : Artifact) (cwd dir : Path) :
    (a.path dir).absoluteNames cwd = dir.absoluteNames cwd ++ [a.name] := by
  rw [path_eq]
  exact dir.absoluteNames_concat a.name cwd

end Artifact

/-- A path is no longer than the path of an artifact below it. -/
theorem Artifact.text_le (a : Artifact) (dir : Path) :
    dir.text.utf8ByteSize ≤ (a.path dir).text.utf8ByteSize := by
  rw [path_eq]
  exact dir.text_le_concat a.name_ne_empty

/-! ## A directory that is reached -/

/-- The path of a directory leads to it whatever it contains, with room for the names
    of the artifacts. -/
structure Reaches (d : Disk) (cwd dir : Path) (place : Place) : Prop where
  noNul : dir.holdsNul = false
  leads : ∀ a : Artifact,
    (d.eraseBelow place).find cwd .entry (a.path dir) = .ok (place ++ [a.name])

namespace Reaches

variable {d₀ d : Disk} {cwd dir : Path} {place : Place}

theorem text_le (hr : Reaches d₀ cwd dir place) : dir.text.utf8ByteSize ≤ Disk.textLimit :=
  Nat.le_trans (Artifact.text_le .expected dir) (Disk.find_eq_ok_iff.mp (hr.leads .expected)).1

theorem holdsNul_path (hr : Reaches d₀ cwd dir place) (a : Artifact) :
    (a.path dir).holdsNul = false := by rw [Artifact.holdsNul_path, hr.noNul]

/-- Every look-up of an artifact leads to its entry. -/
theorem find_artifact (hr : Reaches d₀ cwd dir place) (h : Confined d₀ place d) (aim : Disk.Aim)
    (a : Artifact) : d.find cwd aim (a.path dir) = .ok (place ++ [a.name]) := by
  obtain ⟨hsize, hlead⟩ := Disk.find_eq_ok_iff.mp (hr.leads a)
  refine Disk.find_eq_ok_iff.mpr ⟨hsize, ?_⟩
  refine (hlead.of_eraseBelow h.outside (fun _ _ => rfl)).of_entry ?_ ?_ aim
  · rw [Artifact.absoluteNames_path, List.getLast?_concat]
    simpa using a.name_ne_empty
  · exact h.linkFree [a.name]

/-- The path of the directory leads to it. -/
theorem leads_dir (hr : Reaches d₀ cwd dir place) (h : Confined d₀ place d) :
    Disk.Leads d .target Disk.linkLimit [] (dir.absoluteNames cwd) place
      ∧ d.get? place = some .dir := by
  obtain ⟨-, hlead⟩ := Disk.find_eq_ok_iff.mp (hr.find_artifact h .entry .expected)
  rw [Artifact.absoluteNames_path] at hlead
  -- an artifact that is found shows the way to its directory
  obtain ⟨middle, fewer, hm, htail⟩ := hlead.append_inv (List.cons_ne_nil _ _)
  obtain ⟨heq, hdir⟩ := htail.single_inv (Artifact.isName_name _) (Artifact.name_ne_dotdot _)
    (fun _ _ => rfl)
  cases List.append_inj_left' heq rfl
  exact ⟨hm, hdir⟩

/-- The directory is found to be one, whatever was done below it. -/
theorem isDir_dir (hr : Reaches d₀ cwd dir place) (h : Confined d₀ place d) :
    d.isDir cwd dir = .ok true := by
  obtain ⟨hlead, hdir⟩ := hr.leads_dir h
  have hfind : d.find cwd .target dir = .ok place :=
    Disk.find_eq_ok_iff.mpr ⟨hr.text_le, hlead⟩
  have hstatus : d.status cwd .target dir = .ok .dir := by
    rw [Disk.status_of_find hfind, hdir]
  simp [Disk.isDir, Disk.node?, hr.noNul, hstatus, Except.map]

/-- The directory of an artifact needs not be made. -/
theorem makeDirs_dir (hr : Reaches d₀ cwd dir place) (h : Confined d₀ place d) :
    Disk.makeDirs cwd dir d = .ok () d := by
  obtain ⟨hlead, hdir⟩ := hr.leads_dir h
  obtain ⟨q, hq, hsome⟩ := hlead.exists_entry (by simp [hdir])
  have hfind : d.find cwd .entry dir = .ok q :=
    Disk.find_eq_ok_iff.mpr ⟨hr.text_le, hq⟩
  have henter : ∀ onMissing : Disk.Edit Unit, Disk.enterDir cwd dir onMissing d = .ok () d :=
    fun _ => Disk.enterDir_of_isDir hfind hsome (hr.isDir_dir h)
  unfold Disk.makeDirs
  rw [Disk.checkNul_of_not_holdsNul hr.noNul]
  show Disk.makeDirsFrom cwd dir.anchor dir.names.reverse d = .ok () d
  -- the first attempt is at the directory itself, so those above it are never tried
  obtain ⟨anchor, names⟩ := dir
  cases hnames : names.reverse with
  | nil =>
      rw [List.reverse_eq_nil_iff.mp hnames] at henter
      exact henter _
  | cons m up =>
      have hrev : (m :: up).reverse = names := by rw [← hnames, List.reverse_reverse]
      rw [Disk.makeDirsFrom, hrev]
      exact henter _

/-- An artifact is written to its entry, unless a directory stands there. -/
theorem writeWithParents_eq (hr : Reaches d₀ cwd dir place) (h : Confined d₀ place d) (a : Artifact)
    (content : Bytes) :
    Disk.writeWithParents cwd (a.path dir) content d
      = if d.get? (place ++ [a.name]) = some .dir
        then .error (.refused .isDirectory (a.path dir)) d
        else .ok () (d.put (place ++ [a.name]) (.file content)) := by
  have hwrite := Disk.write_of_find content (hr.holdsNul_path a) (hr.find_artifact h .newFile a)
  unfold Disk.writeWithParents
  rw [Artifact.parent_path, Step.bind_ok (hr.makeDirs_dir h), Step.attempt, hwrite]
  cases d.get? (place ++ [a.name]) with
  | none => rfl
  | some node => cases node <;> rfl

end Reaches

/-! ## A directory for a case -/

/-- A case can be verified in a directory: its path leads to it whatever it
    contains, with room for the names of the artifacts; no link is in it, and no
    artifact. -/
structure Vacant (d : Disk) (cwd dir : Path) (place : Place) : Prop where
  noNul : dir.holdsNul = false
  leads : ∀ a : Artifact,
    (d.eraseBelow place).find cwd .entry (a.path dir) = .ok (place ++ [a.name])
  linkFree : d.LinkFree place
  empty : ∀ a : Artifact, d.get? (place ++ [a.name]) = none

/-- What has been kept as artifacts. -/
abbrev Kept := Artifact → Option Bytes

namespace Kept

/-- Nothing is kept. -/
def nothing : Kept := fun _ => none

/-- What is kept with another content, or none, for one artifact. -/
def set (k : Kept) (a : Artifact) (content : Option Bytes) : Kept :=
  fun b => if b = a then content else k b

/-- The artifacts that are kept, as they stand in their directory. -/
def shown (k : Kept) : List (Artifact × Node) :=
  Artifact.all.filterMap fun a => (k a).map fun content => (a, .file content)

end Kept

/-- What has become of a disk on which a directory was vacant: nothing outside the
    directory has changed, and what is kept stands under the names of the
    artifacts. -/
structure Holds (d₀ : Disk) (place : Place) (k : Kept) (d : Disk) : Prop where
  outside : ∀ q, (∀ n rest, q ≠ place ++ n :: rest) → d.get? q = d₀.get? q
  linkFree : d.LinkFree place
  kept : ∀ a : Artifact, d.get? (place ++ [a.name]) = (k a).map .file

theorem Vacant.reaches {d : Disk} {cwd dir : Path} {place : Place} (h : Vacant d cwd dir place) :
    Reaches d cwd dir place := ⟨h.noNul, h.leads⟩

/-- At the start nothing is kept. -/
theorem Vacant.holds {d : Disk} {cwd dir : Path} {place : Place} (h : Vacant d cwd dir place) :
    Holds d place .nothing d :=
  ⟨fun _ _ => rfl, h.linkFree, h.empty⟩

namespace Holds

variable {d₀ d d' : Disk} {cwd dir : Path} {place : Place} {k : Kept} {n : String}

theorem confined (h : Holds d₀ place k d) : Confined d₀ place d := ⟨h.outside, h.linkFree⟩

/-- Another entry of the directory may change. -/
theorem changesBelow (h : Holds d₀ place k d) (hc : d.ChangesBelow (place ++ [n]) d')
    (hn : ∀ a : Artifact, n ≠ a.name) : Holds d₀ place k d' := by
  refine ⟨fun q hq => ?_, Disk.PassesThrough.linkFree h.linkFree hc, fun a => ?_⟩
  · rw [Disk.PassesThrough.same_outside hc q hq, h.outside q hq]
  · rw [hc.outside, h.kept a]
    intro hp
    rw [List.prefix_append_right_inj] at hp
    exact hn a (List.cons_prefix_cons.mp hp).1

/-- An artifact may get another content, or none. -/
theorem set (h : Holds d₀ place k d) (a : Artifact) (content : Option Bytes)
    (hd' : ∀ q, d'.get? q
      = if q = place ++ [a.name] then content.map Node.file else d.get? q) :
    Holds d₀ place (k.set a content) d' := by
  refine ⟨fun q hq => ?_, fun rest target hl => ?_, fun b => ?_⟩
  · rw [hd', if_neg (hq a.name []), h.outside q hq]
  · rw [hd'] at hl
    by_cases hq : place ++ rest = place ++ [a.name]
    · rw [if_pos hq] at hl
      cases content <;> cases hl
    · rw [if_neg hq] at hl
      exact h.linkFree rest target hl
  · rw [hd', Kept.set]
    -- different artifacts have different names, so the others stay
    by_cases hb : b = a
    · rw [if_pos (by rw [hb]), if_pos hb]
    · rw [if_neg, if_neg hb, h.kept b]
      intro hp
      exact hb (Artifact.name_injective (List.cons.inj (List.append_cancel_left hp)).1)

/-- To store an artifact is to keep its content. -/
theorem put (h : Holds d₀ place k d) (a : Artifact) (content : Bytes) :
    Holds d₀ place (k.set a (some content)) (d.put (place ++ [a.name]) (.file content)) :=
  h.set a (some content) fun q => Disk.get?_put d _ q _ (by simp)

/-- To remove an artifact is to keep nothing of it. -/
theorem erase (h : Holds d₀ place k d) (a : Artifact) :
    Holds d₀ place (k.set a none) (d.erase (place ++ [a.name])) := by
  refine h.set a none fun q => ?_
  by_cases hq : q = []
  · subst hq
    rw [if_neg (by simp)]
    rfl
  · exact Disk.get?_erase d _ q hq

/-- What is not kept need not be erased. -/
theorem set_none (h : Holds d₀ place k d) {a : Artifact} (ha : k a = none) :
    Holds d₀ place (k.set a none) d := by
  refine h.set a none fun q => ?_
  by_cases hq : q = place ++ [a.name]
  · rw [if_pos hq, hq, h.kept a, ha]
  · rw [if_neg hq]

/-! ### The steps between the processes -/

theorem writeWithParents_eq (hv : Vacant d₀ cwd dir place) (h : Holds d₀ place k d) (a : Artifact)
    (content : Bytes) :
    Disk.writeWithParents cwd (a.path dir) content d
      = .ok () (d.put (place ++ [a.name]) (.file content)) := by
  have hdir : d.get? (place ++ [a.name]) ≠ some .dir := by
    rw [h.kept a]
    cases k a <;> simp
  rw [hv.reaches.writeWithParents_eq h.confined, if_neg hdir]

/-- An artifact is written to its entry. -/
theorem store_eq (hv : Vacant d₀ cwd dir place) {w : World} (hw : w.cwd = cwd)
    (h : Holds d₀ place k w.disk) (a : Artifact) (content : Bytes) :
    Workspace.store (a.path dir) content w
      = .ok () { w with disk := w.disk.put (place ++ [a.name]) (.file content) } := by
  subst hw
  unfold Workspace.store
  rw [Step.within, writeWithParents_eq hv h]

/-- The status of an artifact tells what is kept of it. -/
theorem status_artifact (hv : Vacant d₀ cwd dir place) (h : Holds d₀ place k d) (aim : Disk.Aim)
    (a : Artifact) :
    d.status cwd aim (a.path dir) = match k a with
      | some content => .ok (.file content)
      | none => .error .noEntry := by
  rw [Disk.status_of_find (hv.reaches.find_artifact h.confined aim a), h.kept a]
  cases k a <;> rfl

/-- A name under which nothing is kept passes the guard. -/
theorem refuseExisting_eq (hv : Vacant d₀ cwd dir place) {w : World} (hw : w.cwd = cwd)
    (h : Holds d₀ place k w.disk) {a : Artifact} (ha : k a = none) :
    Workspace.refuseExisting (a.path dir) w = .ok () w := by
  have hstatus := status_artifact hv h .target a
  rw [ha] at hstatus
  have hexists : w.disk.pathExists cwd (a.path dir) = .ok false := by
    simp [Disk.pathExists, Disk.node?, hv.reaches.holdsNul_path a, hstatus, Errno.saysAbsent,
      Except.map]
  unfold Workspace.refuseExisting
  rw [Step.bind_ok (Step.get_apply w), hw, hexists]
  rfl

/-- Where nothing is kept, the guard lets the case go on. -/
theorem guardArtifacts_eq (hv : Vacant d₀ cwd dir place) {w : World} (hw : w.cwd = cwd)
    (h : Holds d₀ place .nothing w.disk) : Verification.guardArtifacts dir w = .ok () w := by
  have hrefuse : ∀ a : Artifact, Workspace.refuseExisting (a.path dir) w = .ok () w :=
    fun a => refuseExisting_eq hv hw h rfl
  unfold Verification.guardArtifacts
  rw [Artifact.forM_all, Step.bind_ok (hrefuse _), Step.bind_ok (hrefuse _), hrefuse]

/-- An artifact is erased if it is there. -/
theorem removeIfPresent_eq (hv : Vacant d₀ cwd dir place) {w : World} (hw : w.cwd = cwd)
    (h : Holds d₀ place k w.disk) (a : Artifact) :
    ∃ d', Workspace.removeIfPresent (a.path dir) w = .ok () { w with disk := d' }
      ∧ Holds d₀ place (k.set a none) d' := by
  have hunlink := Disk.unlink_of_find (hv.reaches.holdsNul_path a)
    (hv.reaches.find_artifact h.confined .entry a)
  rw [h.kept a] at hunlink
  subst hw
  unfold Workspace.removeIfPresent
  rw [Step.bind_ok (Step.get_apply w)]
  cases hk : k a with
  | none =>
      rw [hk] at hunlink
      refine ⟨w.disk, ?_, h.set_none hk⟩
      rw [hunlink]
      rfl
  | some content =>
      rw [hk] at hunlink
      refine ⟨w.disk.erase (place ++ [a.name]), ?_, h.erase a⟩
      rw [hunlink]
      rfl

/-- After the clean-up nothing is kept. -/
theorem clearArtifacts_eq (hv : Vacant d₀ cwd dir place) {w : World} (hw : w.cwd = cwd)
    (h : Holds d₀ place k w.disk) :
    ∃ d', Workspace.clearArtifacts dir w = .ok () { w with disk := d' }
      ∧ Holds d₀ place .nothing d' := by
  obtain ⟨d₁, h₁, hd₁⟩ := removeIfPresent_eq hv hw h .expected
  obtain ⟨d₂, h₂, hd₂⟩ := removeIfPresent_eq hv (w := { w with disk := d₁ }) hw hd₁ .obtained
  obtain ⟨d₃, h₃, hd₃⟩ := removeIfPresent_eq hv (w := { w with disk := d₂ }) hw hd₂ .messages
  refine ⟨d₃, ?_, ?_⟩
  · unfold Workspace.clearArtifacts
    rw [Artifact.forM_all, Step.bind_ok h₁, Step.bind_ok h₂, h₃]
  · have hnothing : ((k.set .expected none).set .obtained none).set .messages none = .nothing := by
      funext a
      cases a <;> rfl
    rwa [hnothing] at hd₃

/-- What stands under the names of the artifacts is what is kept. -/
theorem present_eq (hv : Vacant d₀ cwd dir place) (h : Holds d₀ place k d) :
    Artifact.present d cwd dir = k.shown := by
  unfold Artifact.present Kept.shown
  congr 1
  funext a
  rw [status_artifact hv h .entry a]
  cases k a <;> rfl

end Holds

/-! ## Directories under plain names -/

theorem Disk.linkFree_of_linkCount {d : Disk} (h : d.linkCount = 0) (place : Place) :
    d.LinkFree place := by
  intro rest target hl
  unfold Disk.get? at hl
  split at hl
  · cases hl
  · have hno := List.countP_eq_zero.mp h _ (Disk.mem_of_find? hl)
    exact hno rfl

/-- Names can be looked up one by one: each is the name of an entry, and
    directories stand along them. -/
structure Disk.Plain (d : Disk) (names : List String) : Prop where
  named : ∀ n ∈ names, Path.isName n = true ∧ n ≠ ".." ∧ n.utf8ByteSize ≤ Disk.nameLimit
  isDir : ∀ m ≤ names.length, d.get? (names.take m) = some .dir

/-- Plain names lead along themselves. -/
theorem Disk.Plain.leads {d : Disk} {aim : Disk.Aim} {links : Nat} {q : Place}
    (done : List String) {names rest : List String} (h : d.Plain (done ++ names))
    (ha : aim ≠ .newFile) (hrest : Disk.Leads d aim links (done ++ names) rest q) :
    Disk.Leads d aim links done (names ++ rest) q := by
  induction names generalizing done with
  | nil => rwa [List.append_nil] at hrest
  | cons n names ih =>
      rw [List.append_cons] at h hrest
      have hdone : d.get? done = some .dir := by
        simpa using h.isDir done.length (by simp)
      have hnext : d.get? (done ++ [n]) = some .dir := by
        have := h.isDir (done ++ [n]).length (by simp only [List.length_append]; omega)
        rwa [List.take_left] at this
      obtain ⟨hn, hup, hshort⟩ := h.named n (by simp)
      exact .enter ⟨hdone, hn, hup, fun hf => ha hf.1, hshort⟩ hnext (fun _ hl => nomatch hl)
        (ih _ h hrest)

/-- They do so whatever is below. -/
theorem Disk.Plain.eraseBelow {d : Disk} {names : List String} (h : d.Plain names) :
    (d.eraseBelow names).Plain names := by
  refine ⟨h.named, fun m hm => ?_⟩
  rw [Disk.get?_eraseBelow_of_ne, h.isDir m hm]
  intro n rest heq
  have hlength := congrArg List.length heq
  simp only [List.length_take, List.length_append, List.length_cons] at hlength
  omega

/-- A directory under plain names is vacant if it has neither links nor
    artifacts. -/
theorem Vacant.of_plain {d : Disk} {cwd dir : Path} (hnul : dir.holdsNul = false)
    (hplain : d.Plain (dir.absoluteNames cwd))
    (hsize : ∀ a : Artifact, (a.path dir).text.utf8ByteSize ≤ Disk.textLimit)
    (hlinks : d.LinkFree (dir.absoluteNames cwd))
    (hempty : ∀ a : Artifact, d.get? (dir.absoluteNames cwd ++ [a.name]) = none) :
    Vacant d cwd dir (dir.absoluteNames cwd) := by
  refine ⟨hnul, fun a => Disk.find_eq_ok_iff.mpr ⟨hsize a, ?_⟩, hlinks, hempty⟩
  have hdirs := hplain.eraseBelow
  rw [Artifact.absoluteNames_path]
  refine Disk.Plain.leads [] hdirs (by decide) ?_
  refine .missing ⟨?_, a.isName_name, a.name_ne_dotdot, by simp, by cases a <;> decide⟩ ?_
  · simpa using hdirs.isDir _ (Nat.le_refl _)
  · rw [List.nil_append, Disk.get?_eraseBelow _ _ _ (by simp), if_pos (by simp)]

/-! ## Effects -/

/-- An effect of a process stays in a directory: it is a write, a new directory or
    a removal on a path that goes through the directory to an entry that is no
    artifact. -/
structure Effect.StaysIn (d : Disk) (cwd : Path) (place : Place) (e : Effect) : Prop where
  noLink : e.makesLink = false
  below : ∃ base n rest, e.path.normalNames cwd = base ++ n :: rest ∧
    (d.eraseBelow place).locate .target Disk.linkLimit [] base = .ok place ∧
    Path.isName n = true ∧ ∀ a : Artifact, n ≠ a.name

/-- In a directory under plain names, a path goes through it if its text goes on from
    it. -/
theorem Effect.GoesThrough.of_plain {d : Disk} {cwd : Path} {place : Place} {e : Effect}
    (n : String) (rest : List String) (hplain : d.Plain place) (hlink : e.makesLink = false)
    (hnames : e.path.normalNames cwd = place ++ n :: rest) (hn : Path.isName n = true) :
    e.GoesThrough d cwd place n := by
  refine ⟨hlink, hn, place, rest, hnames, Disk.locate_eq_ok_iff.mpr ?_⟩
  have hdirs := hplain.eraseBelow
  have hleads : Disk.Leads (d.eraseBelow place) .target Disk.linkLimit [] (place ++ []) place :=
    Disk.Plain.leads [] hdirs (by decide) (.stop _ _)
  rwa [List.append_nil] at hleads

/-- An effect below a plain workspace stays in it, if it goes through a name that is no
    artifact. -/
theorem Effect.StaysIn.of_plain {d : Disk} {cwd : Path} {place : Place} {e : Effect} (n : String)
    (rest : List String) (hplain : d.Plain place) (hlink : e.makesLink = false)
    (hnames : e.path.normalNames cwd = place ++ n :: rest) (hn : Path.isName n = true)
    (ha : ∀ a : Artifact, n ≠ a.name) : e.StaysIn d cwd place := by
  obtain ⟨base, rest, hbase, hlocate⟩ :=
    (Effect.GoesThrough.of_plain n rest hplain hlink hnames hn).route
  exact ⟨hlink, base, n, rest, hbase, hlocate, hn, ha⟩

/-- Such an effect goes through the directory. -/
theorem Effect.StaysIn.goesThrough {d : Disk} {cwd : Path} {place : Place} {e : Effect}
    (h : e.StaysIn d cwd place) :
    ∃ n, e.GoesThrough d cwd place n ∧ ∀ a : Artifact, n ≠ a.name := by
  obtain ⟨base, n, rest, hnames, hbase, hn, ha⟩ := h.below
  exact ⟨n, ⟨h.noLink, hn, base, rest, hnames, hbase⟩, ha⟩

namespace Holds

variable {d₀ d : Disk} {cwd dir : Path} {place : Place} {k : Kept}

/-- Effects that stay in the directory keep what is said of it. -/
theorem effects (hv : Vacant d₀ cwd dir place) {at' : Path} {es : List Effect}
    (hes : ∀ e ∈ es, e.StaysIn d₀ at' place) :
    Step.Keeps (Holds d₀ place k) (Effect.applyAll at' es) := by
  refine Effect.keeps_applyAll fun e he d h => ?_
  obtain ⟨n, hthrough, hart⟩ := (hes e he).goesThrough
  have hdir := (hv.reaches.leads_dir hv.holds.confined).2
  exact h.changesBelow (h.confined.changesBelow_effect hdir hthrough) hart

end Holds

end RoundTrip
