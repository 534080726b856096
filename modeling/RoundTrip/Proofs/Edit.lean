import RoundTrip.Proofs.Invariant
import RoundTrip.Proofs.Lookup

/-! # What the operations on the disk do

    One statement for each operation: when it is accepted, and what it has done
    then.  After these no proof opens an operation again. -/

namespace RoundTrip.Disk

variable {d d' : Disk} {cwd p : Path} {aim : Aim} {q : Place} {content : Bytes}

/-- A node that is found is one of the entries. -/
theorem mem_of_find? {p : Place} {node : Node} {es : List (Place × Node)}
    (h : find? p es = some node) : (p, node) ∈ es := by
  induction es with
  | nil => exact nomatch h
  | cons e es ih =>
      rw [find?] at h
      by_cases he : e.1 = p
      · rw [if_pos he] at h
        cases h
        rw [← he]
        exact List.mem_cons_self
      · rw [if_neg he] at h
        exact List.mem_cons_of_mem _ (ih h)

theorem checkNul_of_not_holdsNul (h : p.holdsNul = false) : checkNul p = .ok () := by
  simp [checkNul, h]

theorem checkNul_of_holdsNul (h : p.holdsNul = true) : checkNul p = .error .nul := by
  simp [checkNul, h]

/-- A path is found if its text is not too long and its names lead somewhere. -/
theorem find_eq_ok_iff :
    d.find cwd aim p = .ok q
      ↔ p.text.utf8ByteSize ≤ textLimit ∧ Leads d aim linkLimit [] (p.absoluteNames cwd) q := by
  unfold find
  by_cases hs : textLimit < p.text.utf8ByteSize
  · rw [if_pos hs]
    constructor
    · exact fun h => nomatch h
    · exact fun h => absurd hs (Nat.not_lt.mpr h.1)
  · rw [if_neg hs, locate_eq_ok_iff]
    exact ⟨fun h => ⟨Nat.le_of_not_lt hs, h⟩, fun h => h.2⟩

/-- The node that a path leads to. -/
theorem status_of_find (h : d.find cwd aim p = .ok q) :
    d.status cwd aim p = match d.get? q with
      | some node => .ok node
      | none => .error .noEntry := by
  unfold status
  rw [h]
  rfl

/-- A path that leads nowhere has no status, for the same cause. -/
theorem status_of_find_error {e : Errno} (h : d.find cwd aim p = .error e) :
    d.status cwd aim p = .error e := by
  unfold status
  rw [h]
  rfl

/-- Except for a name or a text that is too long, a path is not found because there is nothing. -/
theorem saysAbsent_of_find {e : Errno} (h : d.find cwd .target p = .error e) :
    e = .nameTooLong ∨ e.saysAbsent = true := by
  unfold find at h
  split at h
  · cases h
    exact Or.inl rfl
  · exact saysAbsent_of_locate h

/-- A status is refused for want of an entry, or for the length of a name or a path. -/
theorem saysAbsent_of_status {e : Errno} (h : d.status cwd .target p = .error e) :
    e = .nameTooLong ∨ e.saysAbsent = true := by
  cases hfind : d.find cwd .target p with
  | error e' =>
      rw [status_of_find_error hfind] at h
      cases h
      exact saysAbsent_of_find hfind
  | ok q =>
      rw [status_of_find hfind] at h
      cases hnode : d.get? q with
      | some node =>
          rw [hnode] at h
          cases h
      | none =>
          rw [hnode] at h
          cases h
          exact Or.inr rfl

/-- A path leads to a node exactly if it is found and the node stands there. -/
theorem status_eq_ok_iff {node : Node} :
    d.status cwd aim p = .ok node ↔ ∃ q, d.find cwd aim p = .ok q ∧ d.get? q = some node := by
  cases hf : d.find cwd aim p with
  | error e =>
      rw [status_of_find_error hf]
      constructor
      · exact fun h => nomatch h
      · rintro ⟨q, hq, -⟩
        cases hq
  | ok q =>
      rw [status_of_find hf]
      cases hg : d.get? q with
      | none =>
          constructor
          · exact fun h => nomatch h
          · rintro ⟨_, hq, hnode⟩
            cases hq
            rw [hg] at hnode
            cases hnode
      | some found =>
          constructor
          · intro h
            cases h
            exact ⟨q, rfl, hg⟩
          · rintro ⟨_, hq, hnode⟩
            cases hq
            rw [hg] at hnode
            cases hnode
            rfl

/-- Unless the directory above it is missing, a directory that cannot be made is
    only asked for. -/
theorem endState_enterDir_of_error {onMissing : Edit Unit} {e : Errno}
    (h : d.makeDir cwd p = .error e) (he : e ≠ .noEntry) :
    Step.endState (enterDir cwd p onMissing d) = d := by
  unfold enterDir
  rw [h]
  cases e with
  | noEntry => exact absurd rfl he
  | _ =>
      dsimp only
      cases d.isDir cwd p with
      | ok b => cases b <;> rfl
      | error e => rfl

/-- A directory is entered: it was there, or it is made where nothing stood, or
    the directory above it is missing. -/
theorem endState_enterDir (cwd p : Path) (onMissing : Edit Unit) (d : Disk) :
    Step.endState (enterDir cwd p onMissing d) = d
      ∨ Step.endState (enterDir cwd p onMissing d) = Step.endState (onMissing d)
      ∨ ∃ q, d.find cwd .entry p = .ok q ∧ d.get? q = none ∧
        Step.endState (enterDir cwd p onMissing d) = d.put q .dir := by
  cases hf : d.find cwd .entry p with
  | error e =>
      have hmake : d.makeDir cwd p = .error e := by rw [makeDir, hf]
      -- a missing parent is what the second argument is for; any other error ends the step
      by_cases he : e = .noEntry
      · subst he
        refine Or.inr (Or.inl ?_)
        rw [enterDir, hmake]
      · exact Or.inl (endState_enterDir_of_error hmake he)
  | ok q =>
      by_cases hs : (d.get? q).isSome = true
      · have hmake : d.makeDir cwd p = .error .alreadyExists := by
          rw [makeDir, hf]
          exact if_pos hs
        exact Or.inl (endState_enterDir_of_error hmake (by decide))
      · have hmake : d.makeDir cwd p = .ok (d.put q .dir) := by
          rw [makeDir, hf]
          exact if_neg hs
        refine Or.inr (Or.inr ⟨q, rfl, by simpa using hs, ?_⟩)
        rw [enterDir, hmake]
        rfl

/-- A directory that is there already is entered without a change. -/
theorem enterDir_of_isDir {onMissing : Edit Unit} (hq : d.find cwd .entry p = .ok q)
    (hs : (d.get? q).isSome) (hd : d.isDir cwd p = .ok true) :
    enterDir cwd p onMissing d = .ok () d := by
  unfold enterDir makeDir
  simp only [hq, hs, if_true, hd]

/-- A write goes to the place that the path leads to, unless a directory stands
    there. -/
theorem write_of_find (content : Bytes) (hp : p.holdsNul = false)
    (hq : d.find cwd .newFile p = .ok q) :
    d.write cwd p content = match d.get? q with
      | some .dir => .error (.refused .isDirectory p)
      | _ => .ok (d.put q (.file content)) := by
  unfold write
  rw [checkNul_of_not_holdsNul hp, hq]
  cases hg : d.get? q with
  | none => simp [refuse, bind, Except.bind, hg]
  | some node => cases node <;> simp [refuse, bind, Except.bind, hg]

/-- A file is written at the place that its path leads to, where no directory stands. -/
theorem write_eq_ok (h : d.write cwd p content = .ok d') :
    p.holdsNul = false ∧ ∃ q, d.find cwd .newFile p = .ok q ∧ d.get? q ≠ some .dir
      ∧ d' = d.put q (.file content) := by
  cases hn : p.holdsNul with
  | true =>
      unfold write at h
      rw [checkNul_of_holdsNul hn] at h
      cases h
  | false =>
      cases hf : d.find cwd .newFile p with
      | error e =>
          unfold write at h
          rw [checkNul_of_not_holdsNul hn, hf] at h
          cases h
      | ok q =>
          rw [write_of_find _ hn hf] at h
          refine ⟨rfl, q, rfl, ?_, ?_⟩
          · intro hg
            rw [hg] at h
            cases h
          · cases hg : d.get? q with
            | none => rw [hg] at h; cases h; rfl
            | some node => cases node <;> rw [hg] at h <;> cases h <;> rfl

/-- A write puts the file where its path leads afterwards.  Neither a directory nor a link
    stood there. -/
theorem find_of_write (h : d.write cwd p content = .ok d') :
    ∃ q, d'.find cwd .target p = .ok q ∧ d' = d.put q (.file content) ∧ q ≠ []
      ∧ d.get? q ≠ some .dir ∧ ∀ target, d.get? q ≠ some (.link target) := by
  obtain ⟨-, q, hfind, hdir, rfl⟩ := write_eq_ok h
  obtain ⟨hsize, hlead⟩ := find_eq_ok_iff.mp hfind
  have hq : q ≠ [] := by
    rintro rfl
    exact hdir rfl
  have hnoLink : ∀ target, d.get? q ≠ some (.link target) := by
    refine hlead.noLink (by decide) fun p hp => ?_
    rw [List.prefix_nil.mp hp]
    exact fun _ hl => nomatch hl
  have hlead' : Leads (d.put q (.file content)) .target linkLimit [] (p.absoluteNames cwd) q := by
    refine hlead.target_of_newFile.transfer (fun r hr => ?_) (fun r target hr => ?_)
      (fun target hl => ?_)
    · have hne : r ≠ q := fun h => hdir (h ▸ hr)
      rw [get?_put _ _ _ _ hq, if_neg hne, hr]
    · have hne : r ≠ q := fun h => hnoLink target (h ▸ hr)
      rw [get?_put _ _ _ _ hq, if_neg hne, hr]
    · rw [get?_put _ _ _ _ hq, if_pos rfl] at hl
      cases hl
  exact ⟨q, find_eq_ok_iff.mpr ⟨hsize, hlead'⟩, rfl, hq, hdir, hnoLink⟩

/-- What has been written is read back. -/
theorem contentOf_of_write (h : d.write cwd p content = .ok d') :
    d'.contentOf cwd p = .ok content := by
  have hnul := (write_eq_ok h).1
  obtain ⟨q, hfind, rfl, hq, -⟩ := find_of_write h
  have hstatus : (d.put q (.file content)).status cwd .target p = .ok (.file content) := by
    rw [status_of_find hfind, get?_put _ _ _ _ hq, if_pos rfl]
  unfold contentOf
  rw [checkNul_of_not_holdsNul hnul, hstatus]
  rfl

/-- What was written can be read. -/
theorem contentOf_of_writeWithParents
    (h : writeWithParents cwd p content d = .ok () d') : d'.contentOf cwd p = .ok content := by
  unfold writeWithParents at h
  obtain ⟨_, d₁, -, h⟩ := Step.bind_eq_ok_iff.mp h
  exact contentOf_of_write (Step.of_attempt_eq_ok h)

/-- An unlinking removes the entry that the path leads to, unless that is a
    directory. -/
theorem unlink_of_find (hp : p.holdsNul = false) (hq : d.find cwd .entry p = .ok q) :
    d.unlink cwd p = match d.get? q with
      | none => .error (.refused .noEntry p)
      | some .dir => .error (.refused .isDirectory p)
      | some _ => .ok (d.erase q) := by
  unfold unlink
  rw [checkNul_of_not_holdsNul hp, hq]
  cases hg : d.get? q with
  | none => simp [refuse, bind, Except.bind, hg]
  | some node => cases node <;> simp [refuse, bind, Except.bind, hg]

/-- What has been unlinked was the entry that the path leads to. -/
theorem unlink_eq_ok (h : d.unlink cwd p = .ok d') :
    ∃ q, d.find cwd .entry p = .ok q ∧ d.get? q ≠ some .dir ∧ d' = d.erase q := by
  cases hn : p.holdsNul with
  | true =>
      unfold unlink at h
      rw [checkNul_of_holdsNul hn] at h
      cases h
  | false =>
      cases hf : d.find cwd .entry p with
      | error e =>
          unfold unlink at h
          rw [checkNul_of_not_holdsNul hn, hf] at h
          cases h
      | ok q =>
          rw [unlink_of_find hn hf] at h
          refine ⟨q, rfl, ?_, ?_⟩
          · intro hg
            rw [hg] at h
            cases h
          · cases hg : d.get? q with
            | none => rw [hg] at h; cases h
            | some node => cases node <;> rw [hg] at h <;> cases h <;> rfl

/-- A directory is made where nothing stood. -/
theorem makeDir_eq_ok (h : d.makeDir cwd p = .ok d') :
    ∃ q, d.find cwd .entry p = .ok q ∧ d.get? q = none ∧ d' = d.put q .dir := by
  unfold makeDir at h
  cases hf : d.find cwd .entry p with
  | error e =>
      rw [hf] at h
      cases h
  | ok q =>
      rw [hf] at h
      by_cases hs : (d.get? q).isSome = true
      · simp only [if_pos hs] at h
        cases h
      · simp only [if_neg hs] at h
        cases h
        exact ⟨q, rfl, by simpa using hs, rfl⟩

/-- A removal takes the whole tree at the place that the path leads to. -/
theorem discard_eq_ok (h : d.discard cwd p = .ok d') :
    d' = d ∨ ∃ q, d.find cwd .entry p = .ok q ∧ d' = d.eraseTree q := by
  unfold discard at h
  cases hn : p.holdsNul with
  | true =>
      rw [checkNul_of_holdsNul hn] at h
      cases h
  | false =>
      rw [checkNul_of_not_holdsNul hn] at h
      cases hf : d.find cwd .entry p with
      | error e =>
          rw [hf] at h
          cases h
          exact Or.inl rfl
      | ok q =>
          rw [hf] at h
          cases h
          exact Or.inr ⟨q, rfl, rfl⟩

theorem isEmptyAt_eraseBelow (d : Disk) (q : Place) : (d.eraseBelow q).isEmptyAt q = true := by
  refine List.all_eq_true.mpr fun r hr => ?_
  obtain ⟨e, he, rfl⟩ := List.mem_map.mp hr
  exact (List.mem_filter.mp he).2

/-- A directory tree is removed if its path leads to it and, once it has been
    emptied, still does. -/
theorem removeTree_of_find {n : String} (hnul : p.holdsNul = false)
    (hlast : p.names.getLast? = some n) (hn : n ≠ "..") (hfind : d.find cwd .entry p = .ok q)
    (hdir : d.get? q = some .dir) (hagain : (d.eraseBelow q).find cwd .entry p = .ok q) :
    removeTree cwd p d = .ok () ((d.eraseBelow q).erase q) := by
  have hstill : (d.eraseBelow q).get? q = some .dir := by
    by_cases hq : q = []
    · subst hq
      rfl
    · rw [get?_eraseBelow d q q hq, if_neg (fun h => h.1 rfl), hdir]
  have hremove : (d.eraseBelow q).removeDir cwd p = .ok ((d.eraseBelow q).erase q) := by
    unfold removeDir
    simp only [hlast, if_neg hn, hagain, hstill, isEmptyAt_eraseBelow, if_true]
  unfold removeTree removeTreeAt
  simp only [checkNul_of_not_holdsNul hnul, hfind, hdir, hremove]

/-- After the removal of a tree nothing stands at its place or below, and all else is
    as it was. -/
theorem get?_erase_eraseBelow (d : Disk) {q : Place} (r : Place) (hq : q ≠ []) :
    ((d.eraseBelow q).erase q).get? r = if q <+: r then none else d.get? r := by
  by_cases hr : r = []
  · subst hr
    rw [if_neg (fun h => hq (List.prefix_nil.mp h))]
    rfl
  rw [get?_erase _ _ _ hr, get?_eraseBelow _ _ _ hr]
  by_cases hrq : r = q
  · rw [if_pos hrq, if_pos (hrq ▸ List.prefix_refl _)]
  · simp [hrq]

end RoundTrip.Disk
