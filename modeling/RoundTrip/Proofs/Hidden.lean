import RoundTrip.Proofs.Descent
import RoundTrip.Proofs.TwoRuns

/-! # Disks that differ in one file

    Two disks may be the same but for the content of the file at one place (`SameBut`).
    A lookup takes the same way on both (`SameBut.find_eq`), and so an edit has the same
    end on both and keeps them the same but for that file: **`Effect.blind_applyAll`**.
    Once nothing stands at the place, the disks are the same (`SameBut.eq_of_vacant`).

    The content is concealed entry by entry, so that the order of the entries is kept. -/

namespace RoundTrip

open Step (Blind SameChange)

/-- A node without the content of a file. -/
def Node.hollow : Node → Node
  | .file _ => .file []
  | n => n

/-- Nodes that are the same without their content are the same, or both are files. -/
theorem Node.hollow_cases {x x' : Option Node} (h : x'.map hollow = x.map hollow) :
    x' = x ∨ ∃ content content', x = some (.file content) ∧ x' = some (.file content') := by
  rcases x with _ | (_ | _ | _) <;> rcases x' with _ | (_ | _ | _) <;>
    simp_all [hollow]

namespace Disk

/-- A node as it is shown when the content of the file at `m` is concealed. -/
def veil (m p : Place) (n : Node) : Node := if p = m then n.hollow else n

/-- The disk with the content of the file at `m` concealed. -/
def conceal (m : Place) (d : Disk) : Disk := ⟨d.entries.map fun e => (e.1, veil m e.1 e.2)⟩

variable {m p q : Place} {d d' : Disk}

/-- To veil a node does not change what kind it is. -/
theorem hollow_veil (n : Node) : (veil m p n).hollow = n.hollow := by
  unfold veil
  split
  · cases n <;> rfl
  · rfl

/-- An entry is found under the veil as it is found without. -/
theorem find?_veil (es : List (Place × Node)) :
    find? q (es.map fun e => (e.1, veil m e.1 e.2)) = (find? q es).map (veil m q) := by
  induction es with
  | nil => rfl
  | cons e es ih =>
      rw [List.map_cons, find?, find?]
      by_cases he : e.1 = q
      · rw [if_pos he, if_pos he, he]
        rfl
      · rw [if_neg he, if_neg he, ih]

/-- What stands at a place of the concealed disk is what stands there, veiled. -/
theorem get?_conceal (d : Disk) (q : Place) : (d.conceal m).get? q = (d.get? q).map (veil m q) := by
  unfold get?
  by_cases hq : q = []
  · rw [if_pos hq, if_pos hq, Option.map_some]
    unfold veil
    split <;> rfl
  · rw [if_neg hq, if_neg hq]
    exact find?_veil d.entries

/-- To replace an entry under the veil is to replace it by the veiled node. -/
theorem replace_veil (n : Node) (es : List (Place × Node)) :
    (replace p n es).map (fun e => (e.1, veil m e.1 e.2))
      = replace p (veil m p n) (es.map fun e => (e.1, veil m e.1 e.2)) := by
  induction es with
  | nil => rfl
  | cons e es ih =>
      rw [List.map_cons, replace, replace]
      by_cases he : e.1 = p
      · rw [if_pos he, if_pos he]
        rfl
      · rw [if_neg he, if_neg he, List.map_cons, ih]

/-- A node may be put before its disk is concealed or after it. -/
theorem conceal_put (d : Disk) (p : Place) (n : Node) :
    (d.put p n).conceal m = (d.conceal m).put p (veil m p n) := by
  unfold put
  by_cases hp : p = []
  · rw [if_pos hp, if_pos hp]
  -- whether there is an entry to replace is not concealed
  · have hsome : (find? p (d.conceal m).entries).isSome = (find? p d.entries).isSome := by
      rw [show find? p (d.conceal m).entries = _ from find?_veil d.entries, Option.isSome_map]
    rw [if_neg hp, if_neg hp, hsome]
    split
    · exact congrArg Disk.mk (replace_veil n d.entries)
    · exact congrArg Disk.mk List.map_append

/-- Entries that are taken away by their places are taken away under the veil, too. -/
theorem conceal_filter (f : Place → Bool) (d : Disk) :
    (⟨d.entries.filter fun e => f e.1⟩ : Disk).conceal m
      = ⟨(d.conceal m).entries.filter fun e => f e.1⟩ := by
  refine congrArg Disk.mk (Eq.symm ?_)
  exact List.filter_map

/-! ## The same but for one file -/

/-- The disks are the same but for the content of the file at `m`. -/
def SameBut (m : Place) (d d' : Disk) : Prop := d'.conceal m = d.conceal m

namespace SameBut

theorem refl (d : Disk) : SameBut m d d := rfl

/-- At each place stands the same kind of node. -/
theorem hollow_eq (h : SameBut m d d') (q : Place) :
    (d'.get? q).map Node.hollow = (d.get? q).map Node.hollow := by
  have hview := congrArg (fun d : Disk => (d.get? q).map Node.hollow) h
  simp only [get?_conceal, Option.map_map] at hview
  rwa [show Node.hollow ∘ veil m q = Node.hollow from funext hollow_veil] at hview

/-- At a place stands the same in both, or a file in each. -/
theorem get?_cases (h : SameBut m d d') (q : Place) :
    d'.get? q = d.get? q
      ∨ ∃ content content', d.get? q = some (.file content) ∧ d'.get? q = some (.file content') :=
  Node.hollow_cases (h.hollow_eq q)

/-- Elsewhere stands the same. -/
theorem get?_eq (h : SameBut m d d') (hq : q ≠ m) : d'.get? q = d.get? q := by
  have hview := congrArg (fun d : Disk => d.get? q) h
  simp only [get?_conceal] at hview
  rwa [show veil m q = id from funext fun n => if_neg hq, Option.map_id, id, id] at hview

/-- The same node may be put into both. -/
theorem put (h : SameBut m d d') (p : Place) (n : Node) : SameBut m (d.put p n) (d'.put p n) := by
  unfold SameBut
  rw [conceal_put, conceal_put, h]

/-- What is written to the file does not matter. -/
theorem put_file (h : SameBut m d d') (content content' : Bytes) :
    SameBut m (d.put m (.file content)) (d'.put m (.file content')) := by
  unfold SameBut
  rw [conceal_put, conceal_put, h]
  unfold veil
  rw [if_pos rfl, if_pos rfl]
  rfl

theorem filter (h : SameBut m d d') (f : Place → Bool) :
    SameBut m ⟨d.entries.filter fun e => f e.1⟩ ⟨d'.entries.filter fun e => f e.1⟩ := by
  unfold SameBut
  rw [conceal_filter, conceal_filter, h]

/-- The same place may be erased from both. -/
theorem erase (h : SameBut m d d') (p : Place) : SameBut m (d.erase p) (d'.erase p) :=
  h.filter fun q => q ≠ p

/-- The same tree may be erased from both. -/
theorem eraseTree (h : SameBut m d d') (p : Place) : SameBut m (d.eraseTree p) (d'.eraseTree p) :=
  h.filter fun q => !p.isPrefixOf q

/-- With nothing at the place, there is no difference. -/
theorem eq_of_vacant (h : SameBut m d d') (hm : d.get? m = none) : d' = d := by
  -- a disk without an entry at the place has nothing to conceal
  have hconceal : ∀ d : Disk, d.get? m = none → d.conceal m = d := by
    intro d hd
    refine congrArg Disk.mk ((List.map_congr_left fun e he => ?_).trans (List.map_id _))
    have hne : e.1 ≠ m := by
      rintro rfl
      have hsome := isSome_of_mem_places (List.mem_map_of_mem (f := (·.1)) he)
      rw [hd] at hsome
      cases hsome
    unfold veil
    rw [if_neg hne]
    rfl
  have hm' : d'.get? m = none := by
    have hhollow := h.hollow_eq m
    rwa [hm, Option.map_none, Option.map_eq_none_iff] at hhollow
  rw [← hconceal d hm, ← hconceal d' hm']
  exact h

end SameBut

/-! ## Lookups -/

variable {cwd path : Path} {aim : Aim}

/-- A lookup does not look into files. -/
theorem locateWith_of_hollow (h : ∀ q, (d'.get? q).map Node.hollow = (d.get? q).map Node.hollow)
    (onLink : Place → List String → Except Errno Place) (here : Place) (names : List String) :
    locateWith onLink d' aim here names = locateWith onLink d aim here names := by
  induction names generalizing here with
  | nil => rfl
  | cons n rest ih =>
      have hcases := fun q => Node.hollow_cases (h q)
      rw [locateWith, locateWith]
      obtain hhere | ⟨content, content', hhere, hhere'⟩ := hcases here
      · obtain hnext | ⟨content, content', hnext, hnext'⟩ := hcases (here ++ [n])
        · simp only [hhere, hnext, ih]
        · simp only [hhere, hnext, hnext', ih]
      · simp only [hhere, hhere']

/-- So a path leads to the same place on disks with the same kinds of nodes. -/
theorem find_of_hollow (h : ∀ q, (d'.get? q).map Node.hollow = (d.get? q).map Node.hollow)
    (cwd path : Path) (aim : Aim) : d'.find cwd aim path = d.find cwd aim path := by
  have hlocate : ∀ links here names,
      d'.locate aim links here names = d.locate aim links here names := by
    intro links
    induction links with
    | zero => exact locateWith_of_hollow h _
    | succ links ih =>
        intro here names
        show locateWith (d'.locate aim links) d' aim here names = _
        rw [show d'.locate aim links = d.locate aim links from
          funext fun here => funext fun names => ih here names]
        exact locateWith_of_hollow h _ here names
  unfold find
  rw [hlocate]

namespace SameBut

theorem find_eq (h : SameBut m d d') (cwd path : Path) (aim : Aim) :
    d'.find cwd aim path = d.find cwd aim path := find_of_hollow h.hollow_eq cwd path aim

/-- The status of a path tells the kind of a node, and no more of a file. -/
theorem status_eq (h : SameBut m d d') (cwd path : Path) (aim : Aim) :
    (d'.status cwd aim path).map Node.hollow = (d.status cwd aim path).map Node.hollow := by
  unfold status
  rw [h.find_eq]
  cases d.find cwd aim path with
  | error e => rfl
  | ok q =>
      dsimp only [bind, Except.bind]
      obtain hq | ⟨content, content', hq, hq'⟩ := h.get?_cases q
      · rw [hq]
      · rw [hq, hq']
        rfl

/-- It takes a directory to be one, so the file does not matter. -/
theorem isDir_eq (h : SameBut m d d') : d'.isDir cwd path = d.isDir cwd path := by
  have hnode : (d'.node? cwd path).map (Option.map Node.hollow)
      = (d.node? cwd path).map (Option.map Node.hollow) := by
    unfold node?
    split
    · rfl
    · have hstatus := h.status_eq cwd path .target
      generalize d'.status cwd .target path = r' at hstatus
      generalize d.status cwd .target path = r at hstatus
      cases r with
      | error e =>
          cases r' with
          | error e' =>
              cases hstatus
              rfl
          | ok n' => cases hstatus
      | ok n =>
          cases r' with
          | error e' => cases hstatus
          | ok n' =>
              exact congrArg (fun n => Except.ok (some n)) (Except.ok.inj hstatus)
  -- whether a node is a directory can be told from its hollow
  have hisDir : ∀ r : Except PathError (Option Node),
      r.map (· == some .dir) = (r.map (Option.map Node.hollow)).map (· == some .dir) := by
    rintro (_ | _ | _ | _ | _) <;> rfl
  unfold isDir
  rw [hisDir, hnode, ← hisDir]

/-- A file is read alike unless it is the one in which the disks differ. -/
theorem contentOf_eq (h : SameBut m d d')
    (hne : ∀ q, d.find cwd .target path = .ok q → q ≠ m) :
    d'.contentOf cwd path = d.contentOf cwd path := by
  have hstatus : d'.status cwd .target path = d.status cwd .target path := by
    unfold status
    rw [h.find_eq]
    cases hq : d.find cwd .target path with
    | error e => rfl
    | ok q =>
        dsimp only [bind, Except.bind]
        rw [h.get?_eq (hne q hq)]
  unfold contentOf
  rw [hstatus]

/-! ## Edits -/

/-- A directory is made on both, or refused on both for the same cause. -/
theorem makeDir (h : SameBut m d d') (cwd path : Path) :
    SameChange (SameBut m) (d.makeDir cwd path) (d'.makeDir cwd path) := by
  unfold Disk.makeDir
  rw [h.find_eq]
  cases d.find cwd .entry path with
  | error e => exact .error e
  | ok q =>
      dsimp only
      obtain hq | ⟨content, content', hq, hq'⟩ := h.get?_cases q
      · rw [hq]
        split
        · exact .error _
        · exact .ok (h.put q .dir)
      · rw [hq, hq']
        exact .error _

/-- What is written may differ as long as it makes no difference elsewhere. -/
theorem write {R : Disk → Disk → Prop} {content content' : Bytes} (h : SameBut m d d')
    (hput : ∀ q, d.find cwd .newFile path = .ok q →
      R (d.put q (.file content)) (d'.put q (.file content'))) :
    SameChange R (d.write cwd path content) (d'.write cwd path content') := by
  unfold Disk.write
  rw [h.find_eq]
  cases checkNul path with
  | error e => exact .error e
  | ok u =>
      cases hq : d.find cwd .newFile path with
      | error e => exact .error _
      | ok q =>
          have hsame := hput q hq
          dsimp only [bind, Except.bind]
          obtain heq | ⟨_, _, heq, heq'⟩ := h.get?_cases q
          · rw [heq]
            split
            · exact .error _
            · exact .ok hsame
          · rw [heq, heq']
            exact .ok hsame

/-- A file is removed from both, be it the one in which they differ. -/
theorem unlink (h : SameBut m d d') (cwd path : Path) :
    SameChange (SameBut m) (d.unlink cwd path) (d'.unlink cwd path) := by
  unfold Disk.unlink
  rw [h.find_eq]
  cases checkNul path with
  | error e => exact .error e
  | ok u =>
      cases d.find cwd .entry path with
      | error e => exact .error _
      | ok q =>
          dsimp only [bind, Except.bind]
          obtain heq | ⟨_, _, heq, heq'⟩ := h.get?_cases q
          · rw [heq]
            split
            · exact .error _
            · exact .error _
            · exact .ok (h.erase q)
          · rw [heq, heq']
            exact .ok (h.erase q)

/-- What a process discards is gone from both. -/
theorem discard (h : SameBut m d d') (cwd path : Path) :
    SameChange (SameBut m) (d.discard cwd path) (d'.discard cwd path) := by
  unfold Disk.discard
  rw [h.find_eq]
  cases checkNul path with
  | error e => exact .error e
  | ok u =>
      cases d.find cwd .entry path with
      | error e => exact .ok h
      | ok q => exact .ok (h.eraseTree q)

/-- A link takes the place of any file, so the old content is of no account. -/
theorem makeLink (h : SameBut m d d') (cwd path : Path) (target : String) :
    SameChange (SameBut m) (d.makeLink cwd path target) (d'.makeLink cwd path target) := by
  have hput : SameChange (SameBut m) (d.putLink cwd path target) (d'.putLink cwd path target) := by
    unfold putLink
    rw [h.find_eq]
    split
    · exact .error _
    split
    · exact .error _
    cases d.find cwd .entry path with
    | error e => exact .error e
    | ok q =>
        dsimp only
        -- something stands at the place on both disks or on neither
        obtain heq | ⟨_, _, heq, heq'⟩ := h.get?_cases q
        · rw [heq]
          split
          · exact .error _
          · exact .ok (h.put q _)
        · rw [heq, heq']
          exact .error _
  unfold Disk.makeLink
  cases checkNul path with
  | error e => exact .error e
  | ok u =>
      show SameChange _ (if _ then _ else _) (if _ then _ else _)
      split
      · exact .error _
      · generalize d.putLink cwd path target = r at hput
        generalize d'.putLink cwd path target = r' at hput
        cases hput with
        | ok ht => exact .ok ht
        | error e => exact .error _

end SameBut

/-- A directory that is there already is taken alike; the difference is never a directory. -/
theorem blind_enterDir {onMissing : Edit Unit} (hmissing : Blind (SameBut m) onMissing)
    (cwd path : Path) : Blind (SameBut m) (enterDir cwd path onMissing) := by
  intro d d' h
  have hmake := h.makeDir cwd path
  unfold enterDir
  generalize d.makeDir cwd path = r at hmake
  generalize d'.makeDir cwd path = r' at hmake
  cases hmake with
  | ok ht => exact .ok ⟨rfl, ht⟩
  | error e =>
      cases e with
      | noEntry => exact hmissing d d' h
      | _ =>
          dsimp only
          rw [h.isDir_eq]
          split
          · exact .ok ⟨rfl, h⟩
          · exact .error ⟨rfl, h⟩
          · exact .error ⟨rfl, h⟩

/-- The directories of a way are made alike, by induction on their names. -/
theorem blind_makeDirs (cwd path : Path) : Blind (SameBut m) (makeDirs cwd path) := by
  have hfrom : ∀ reversed, Blind (SameBut m) (makeDirsFrom cwd path.anchor reversed) := by
    intro reversed
    induction reversed with
    | nil => exact blind_enterDir (Step.blind_throw _) cwd _
    | cons n up ih =>
        refine blind_enterDir (Step.blind_bind ih fun _ => ?_) cwd _
        exact blind_enterDir (Step.blind_throw _) cwd _
  exact Step.blind_bind (Step.blind_ofExcept id _) fun _ => hfrom _

/-- The same content is written alike to a file below directories that may be missing. -/
theorem blind_writeWithParents (cwd path : Path) (content : Bytes) :
    Blind (SameBut m) (writeWithParents cwd path content) :=
  Step.blind_bind (blind_makeDirs cwd _) fun _ =>
    Step.blind_attempt fun _ _ h => h.write fun q _ => h.put q _

/-- A file whose content is concealed may be given different contents. -/
theorem SameBut.writeWithParents (h : SameBut m d d') (content content' : Bytes)
    (hplace : ∀ d₁, makeDirs cwd path.parent d = .ok () d₁ →
      ∀ q, d₁.find cwd .newFile path = .ok q → q = m) :
    Step.EndAlike (fun _ t _ t' => SameBut m t t') (fun e t e' t' => e' = e ∧ SameBut m t t')
      (Disk.writeWithParents cwd path content d) (Disk.writeWithParents cwd path content' d') := by
  refine Step.EndAlike.bind (blind_makeDirs cwd path.parent d d' h)
    fun _ d₁ _ d₁' hd₁ hsame => SameChange.attempt (hsame.2.write fun q hq => ?_) hsame.2
  rw [hplace d₁ hd₁ q hq]
  exact hsame.2.put_file _ _

/-- Whether a file can be written does not depend on its content. -/
theorem endAlike_writeWithParents (cwd path : Path) (content content' : Bytes) (d : Disk) :
    Step.EndAlike (fun _ _ _ _ => True) (fun e _ e' _ => e' = e)
      (Disk.writeWithParents cwd path content d) (Disk.writeWithParents cwd path content' d) := by
  have hparents := Step.blind_eq (makeDirs cwd path.parent) d d rfl
  refine Step.EndAlike.bind (hparents.mono (fun _ _ _ _ hd => hd) fun _ _ _ _ he => he.1)
    fun _ d₁ _ d₁' _ hd => ?_
  obtain rfl := hd.2
  have hwrite : SameChange (fun _ _ => True) (d₁.write cwd path content)
      (d₁.write cwd path content') :=
    (SameBut.refl d₁ : SameBut path.names d₁ d₁).write fun _ _ => trivial
  exact (hwrite.attempt trivial).mono (fun _ _ _ _ hd => hd) fun _ _ _ _ he => he.1

end Disk

/-- Whatever a process does to one disk it does to the other. -/
theorem Effect.blind_apply {m : Place} (cwd : Path) (e : Effect) :
    Blind (Disk.SameBut m) (e.apply cwd) := by
  cases e with
  | write p content => exact Disk.blind_writeWithParents cwd _ content
  | makeDir p => exact Disk.blind_makeDirs cwd _
  | link p target =>
      exact Step.blind_bind (Disk.blind_makeDirs cwd _) fun _ =>
        Step.blind_attempt fun _ _ h => h.makeLink cwd _ target
  | remove p => exact Step.blind_attempt fun _ _ h => h.discard cwd _

/-- What a process does to the disk does not depend on the content of the file. -/
theorem Effect.blind_applyAll {m : Place} (cwd : Path) (es : List Effect) :
    Blind (Disk.SameBut m) (Effect.applyAll cwd es) := by
  induction es with
  | nil => exact Step.blind_pure ()
  | cons e es ih => exact Step.blind_bind (e.blind_apply cwd) fun _ => ih

end RoundTrip
