import RoundTrip.Proofs.Edit

/-! # What a file brings with it

    To write a file is to make the directories above it that are missing, and then the
    file.  A directory that is made stands where nothing stood and where its path leads
    from then on (`Disk.MadeOnWay`); what is made later takes nothing back, because it goes
    to places without a directory and without a link.  So after a write every place is as
    it was, but for the file and the directories on the way to it:
    **`Disk.writeWithParents_eq_ok`** -/

namespace RoundTrip.Disk

open Step (Keeps)

variable {d d' : Disk} {cwd p path : Path} {names : List String} {q r : Place} {node : Node}
  {content : Bytes}

/-- A directory was made on the way to a path. -/
structure MadeOnWay (cwd p : Path) (d d' : Disk) (q : Place) : Prop where
  vacant : d.get? q = none
  isDir : d'.get? q = some .dir
  /-- The path, or one above it, leads there now. -/
  onWay : ∃ names, names <+: p.names ∧ d'.find cwd .entry ⟨p.anchor, names⟩ = .ok q

/-- All that changed are directories made on the way to a path. -/
def WayMade (cwd p : Path) (d d' : Disk) : Prop :=
  ∀ q, d'.get? q = d.get? q ∨ MadeOnWay cwd p d d' q

/-- What is put where neither a directory nor a link stands leaves every entry where it
    was. -/
theorem find_put (h : d.find cwd .entry p = .ok q) (hr : r ≠ []) (hdir : d.get? r ≠ some .dir)
    (hlink : ∀ target, d.get? r ≠ some (.link target)) :
    (d.put r node).find cwd .entry p = .ok q := by
  obtain ⟨hsize, hlead⟩ := find_eq_ok_iff.mp h
  refine find_eq_ok_iff.mpr ⟨hsize, hlead.transfer (fun s hs => ?_) (fun s target hs => ?_)
    fun _ _ => rfl⟩
  · have hne : s ≠ r := fun h => hdir (h ▸ hs)
    rw [get?_put _ _ _ _ hr, if_neg hne, hs]
  · have hne : s ≠ r := fun h => hlink target (h ▸ hs)
    rw [get?_put _ _ _ _ hr, if_neg hne, hs]

theorem MadeOnWay.put (h : MadeOnWay cwd p d d' q) (hq : q ≠ r) (hr : r ≠ [])
    (hdir : d'.get? r ≠ some .dir) (hlink : ∀ target, d'.get? r ≠ some (.link target)) :
    MadeOnWay cwd p d (d'.put r node) q where
  vacant := h.vacant
  isDir := by rw [get?_put _ _ _ _ hr, if_neg hq, h.isDir]
  onWay := by
    obtain ⟨names, hnames, hfind⟩ := h.onWay
    exact ⟨names, hnames, find_put hfind hr hdir hlink⟩

namespace WayMade

theorem refl (cwd p : Path) (d : Disk) : WayMade cwd p d d := fun _ => Or.inl rfl

/-- What stands elsewhere is told by the way that was made before. -/
theorem put_of_ne (h : WayMade cwd p d d') (hr : r ≠ []) (hdir : d'.get? r ≠ some .dir)
    (hlink : ∀ target, d'.get? r ≠ some (.link target)) (hq : q ≠ r) :
    (d'.put r node).get? q = d.get? q ∨ MadeOnWay cwd p d (d'.put r node) q := by
  obtain hsame | hmade := h q
  · exact Or.inl (by rw [get?_put _ _ _ _ hr, if_neg hq, hsame])
  · exact Or.inr (hmade.put hq hr hdir hlink)

/-- One more directory is made, where a path on the way leads. -/
theorem makeDir (h : WayMade cwd p d d') (hnames : names <+: p.names)
    (hfind : d'.find cwd .entry ⟨p.anchor, names⟩ = .ok r) (hnone : d'.get? r = none) :
    WayMade cwd p d (d'.put r .dir) := by
  have hr : r ≠ [] := by
    rintro rfl
    cases hnone
  have hdir : d'.get? r ≠ some .dir := by simp [hnone]
  have hlink : ∀ target, d'.get? r ≠ some (.link target) := by simp [hnone]
  intro q
  by_cases hq : q = r
  · subst hq
    obtain hsame | hmade := h q
    · refine Or.inr ⟨hsame.symm.trans hnone, ?_, names, hnames, find_put hfind hr hdir hlink⟩
      rw [get?_put _ _ _ _ hr, if_pos rfl]
    · exact absurd hmade.isDir hdir
  · exact h.put_of_ne hr hdir hlink hq

theorem keeps_enterDir (hnames : names <+: p.names) {onMissing : Edit Unit}
    (h : Keeps (WayMade cwd p d) onMissing) :
    Keeps (WayMade cwd p d) (enterDir cwd ⟨p.anchor, names⟩ onMissing) := by
  intro d' hd'
  obtain hend | hend | ⟨r, hfind, hnone, hend⟩ :=
    endState_enterDir cwd ⟨p.anchor, names⟩ onMissing d'
  · rw [hend]
    exact hd'
  · rw [hend]
    exact h d' hd'
  · rw [hend]
    exact hd'.makeDir hnames hfind hnone

/-- Every directory that is made with a path is on the way to it. -/
theorem keeps_makeDirs (cwd p : Path) (d : Disk) :
    Keeps (WayMade cwd p d) (makeDirs cwd p) := by
  have hfrom : ∀ reversed : List String, reversed.reverse <+: p.names →
      Keeps (WayMade cwd p d) (makeDirsFrom cwd p.anchor reversed) := by
    intro reversed
    induction reversed with
    | nil => exact fun hnames => keeps_enterDir hnames (Step.keeps_throw _)
    | cons n up ih =>
        intro hnames
        have hup : up.reverse <+: p.names := by
          rw [List.reverse_cons] at hnames
          exact (List.prefix_append _ _).trans hnames
        refine keeps_enterDir hnames (Step.keeps_bind (ih hup) fun _ => ?_)
        exact keeps_enterDir hnames (Step.keeps_throw _)
  refine Step.keeps_bind (Step.keeps_ofExcept _ _) fun _ => hfrom _ ⟨[], ?_⟩
  rw [List.append_nil, List.reverse_reverse]

end WayMade

/-- **What a written file has changed.**  It stands where its path leads, and any other
    place is as it was or is a directory that was made on the way. -/
theorem writeWithParents_eq_ok (h : writeWithParents cwd path content d = .ok () d') :
    ∃ place, d'.find cwd .target path = .ok place ∧ d'.get? place = some (.file content)
      ∧ ∀ q, q ≠ place → d'.get? q = d.get? q ∨ MadeOnWay cwd path.parent d d' q := by
  unfold writeWithParents at h
  obtain ⟨_, d₁, hmake, h⟩ := Step.bind_eq_ok_iff.mp h
  have hway := (WayMade.keeps_makeDirs cwd path.parent d).of_eq_ok (.refl _ _ _) hmake
  obtain ⟨place, hfind, rfl, hplace, hdir, hlink⟩ := find_of_write (Step.of_attempt_eq_ok h)
  refine ⟨place, hfind, ?_, fun q hq => hway.put_of_ne hplace hdir hlink hq⟩
  rw [get?_put _ _ _ _ hplace, if_pos rfl]

/-- Where a file cannot be written, no more was done than to make directories on the
    way. -/
theorem writeWithParents_eq_error {e : PathError}
    (h : writeWithParents cwd path content d = .error e d') : WayMade cwd path.parent d d' := by
  unfold writeWithParents at h
  have hkeeps := WayMade.keeps_makeDirs cwd path.parent d d (.refl _ _ _)
  obtain h | ⟨_, d₁, hmake, h⟩ := Step.bind_eq_error_iff.mp h
  · rwa [h] at hkeeps
  · rw [hmake] at hkeeps
    unfold Step.attempt at h
    split at h
    · cases h
    · cases h
      exact hkeeps

end RoundTrip.Disk
