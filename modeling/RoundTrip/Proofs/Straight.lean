import RoundTrip.Proofs.Rooms
import RoundTrip.Proofs.Walk

/-! # Ways without links

    A tree may be known to have no link at certain places (`Disk.Straight`): then a path
    along those places leads to its own names (`Leads.direct`), and if it leads to
    nothing, nothing stands there (`Straight.get?_of_noEntry`).  An operation that makes
    no link keeps the tree like this, whatever else it does: **`Effect.keeps_straight`**.
    A directory that was just made has no link below it (`Straight.enter`). -/

namespace RoundTrip

open Step (Keeps endState)

namespace Disk

/-- What stands somewhere stands in a directory, and at these places stands no link. -/
structure Straight (Z : Place → Prop) (d : Disk) : Prop where
  closed : d.Closed
  noLink : ∀ q, Z q → ∀ target, d.get? q ≠ some (.link target)

variable {Z : Place → Prop} {d d' : Disk} {q here : Place} {names : List String} {aim : Aim}
  {cwd path : Path}

/-- Where entries are taken away, the others stand as before. -/
theorem get?_filter (f : Place → Bool) (d : Disk) (q : Place) (hq : q ≠ []) :
    (⟨d.entries.filter fun e => f e.1⟩ : Disk).get? q = if f q then d.get? q else none := by
  unfold get?
  rw [if_neg hq, if_neg hq]
  exact find?_filter f q d.entries

/-- A link is put where nothing stands. -/
theorem putLink_eq_ok {target : String} (h : d.putLink cwd path target = .ok d') :
    ∃ q, d.find cwd .entry path = .ok q ∧ d.get? q = none ∧ d' = d.put q (.link target) := by
  unfold putLink at h
  split at h
  · cases h
  split at h
  · cases h
  cases hfind : d.find cwd .entry path with
  | error e =>
      rw [hfind] at h
      cases h
  | ok q =>
      rw [hfind] at h
      dsimp only at h
      split at h
      · cases h
      · rename_i hnone
        cases h
        exact ⟨q, rfl, Option.not_isSome_iff_eq_none.mp hnone, rfl⟩

/-- So is one that a process makes. -/
theorem makeLink_eq_ok {target : String} (h : d.makeLink cwd path target = .ok d') :
    ∃ q, d.find cwd .entry path = .ok q ∧ d.get? q = none ∧ d' = d.put q (.link target) := by
  unfold makeLink at h
  cases hnul : checkNul path with
  | error e =>
      rw [hnul] at h
      cases h
  | ok u =>
      rw [hnul] at h
      replace h : (if _ then _ else _) = Except.ok d' := h
      split at h
      · cases h
      split at h
      · rename_i hput
        cases h
        exact putLink_eq_ok hput
      · cases h

/-- A directory that is removed was empty. -/
theorem removeDir_eq_ok (h : d.removeDir cwd path = .ok d') :
    ∃ q, d.isEmptyAt q = true ∧ d' = d.erase q := by
  unfold removeDir at h
  split at h
  · cases h
  split at h
  · split at h <;> cases h
  split at h
  · cases h
  rename_i q _
  split at h
  · cases h
  · split at h
    · rename_i hempty
      cases h
      exact ⟨q, hempty, rfl⟩
    · cases h
  · cases h

/-- An empty directory has nothing below it. -/
theorem get?_of_isEmptyAt {n : String} (h : d.isEmptyAt q = true) : d.get? (q ++ [n]) = none := by
  by_contra hne
  have hmem := mem_places (by simp) (Option.isSome_iff_ne_none.mpr hne)
  have hout := List.all_eq_true.mp h _ hmem
  rw [Bool.or_eq_true, decide_eq_true_eq, Bool.not_eq_true', ← Bool.not_eq_true,
    List.isPrefixOf_iff_prefix] at hout
  obtain heq | hnot := hout
  · exact absurd (congrArg List.length heq) (by simp)
  · exact hnot (List.prefix_append _ _)

/-- Where a path leads to nothing, it leads to an entry that a directory might have. -/
theorem Leads.parent_isDir {links : Nat} (h : Leads d aim links here names q) (hd : d.Closed)
    (hhere : (d.get? here).isSome) (hq : d.get? q = none) :
    ∃ p n, q = p ++ [n] ∧ d.get? p = some .dir := by
  induction h with
  | stop =>
      rw [hq] at hhere
      cases hhere
  | skip _ _ _ ih => exact ih hhere hq
  | @up links here q rest isDir _ ih =>
      refine ih ?_ hq
      -- the parent of a place in a closed disk is a directory; the root is its own
      induction here using List.reverseRecOn with
      | nil => rfl
      | append_singleton above n =>
          rw [List.dropLast_concat, hd above n hhere]
          rfl
  | missing h _ => exact ⟨_, _, rfl, h.isDir⟩
  | link h hn =>
      rw [hq] at hn
      cases hn
  | follow h _ _ _ ih =>
      refine ih ?_ hq
      unfold targetStart
      split
      · rw [h.isDir]
        rfl
      · rfl
  | enter _ hn _ _ ih => exact ih (by rw [hn]; rfl) hq

/-- A path that meets no link leads to its own names. -/
theorem Leads.direct {links : Nat} (h : Leads d aim links here names q)
    (hnames : ∀ n ∈ names, Path.IsFileName n)
    (hlink : ∀ pre, pre <+: names → ∀ target, d.get? (here ++ pre) = some (.link target) →
      pre = names ∧ aim = .entry) : q = here ++ names := by
  induction h with
  | stop => exact (List.append_nil _).symm
  | skip _ hn _ _ =>
      have hname := (hnames _ List.mem_cons_self).isName
      rw [hn] at hname
      cases hname
  | up _ _ _ => exact absurd rfl (hnames _ List.mem_cons_self).notUp
  | missing _ _ => rfl
  | link _ _ _ => rfl
  | follow _ hn hf _ _ =>
      obtain ⟨hpre, ha⟩ := hlink [_] (by simp) _ hn
      rw [List.cons.injEq] at hpre
      exact absurd ⟨hpre.2.symm, ha⟩ hf
  | @enter links here q n rest node _ _ _ _ ih =>
      -- what is entered stands under the first name, so the rest is looked up from there
      rw [ih (fun m hm => hnames m (List.mem_cons_of_mem _ hm)) ?_, List.append_assoc]
      · rfl
      · intro pre hpre target hstands
        rw [List.append_assoc] at hstands
        obtain ⟨hall, ha⟩ := hlink (n :: pre) (List.cons_prefix_cons.mpr ⟨rfl, hpre⟩) _ hstands
        rw [List.cons.injEq] at hall
        exact ⟨hall.2, ha⟩

namespace Straight

/-! ## Operations -/

/-- A node may be put below a directory, but not over one. -/
theorem put {p : Place} {n : String} {node : Node} (h : Straight Z d)
    (hparent : d.get? p = some .dir) (hover : d.get? (p ++ [n]) ≠ some .dir)
    (hnode : ∀ target, node = .link target → ¬Z (p ++ [n])) :
    Straight Z (d.put (p ++ [n]) node) := by
  have hget := fun q =>
    get?_put d (p ++ [n]) q node (List.append_ne_nil_of_right_ne_nil _ (by simp))
  refine ⟨fun r m hsome => ?_, fun q hq target => ?_⟩
  · rw [hget] at hsome ⊢
    have hdir : d.get? r = some .dir := by
      by_cases hr : r ++ [m] = p ++ [n]
      · rw [(List.append_inj' hr rfl).1]
        exact hparent
      · rw [if_neg hr] at hsome
        exact h.closed r m hsome
    rw [if_neg, hdir]
    rintro rfl
    exact hover hdir
  · rw [hget]
    split
    · rename_i heq
      rintro ⟨⟩
      exact hnode target rfl (heq ▸ hq)
    · exact h.noLink q hq target

/-- What is taken away has nothing below it that stays. -/
theorem filter (h : Straight Z d) (f : Place → Bool)
    (hf : ∀ p n, (d.get? (p ++ [n])).isSome → f (p ++ [n]) = true → p ≠ [] → f p = true) :
    Straight Z ⟨d.entries.filter fun e => f e.1⟩ := by
  refine ⟨fun p n hsome => ?_, fun q hq target => ?_⟩
  · by_cases hp : p = []
    · rw [hp]
      rfl
    · rw [get?_filter f d _ (by simp)] at hsome
      split at hsome
      · rename_i hstays
        rw [get?_filter f d p hp, if_pos (hf p n hsome hstays hp)]
        exact h.closed p n hsome
      · cases hsome
  · by_cases hq' : q = []
    · rw [hq']
      exact nofun
    · rw [get?_filter f d q hq']
      split
      · exact h.noLink q hq target
      · exact nofun

/-- Anything but a directory may be erased. -/
theorem erase (h : Straight Z d) (hq : d.get? q ≠ some .dir) : Straight Z (d.erase q) := by
  refine h.filter (fun p => p ≠ q) fun p n hsome _ _ => decide_eq_true ?_
  rintro rfl
  exact hq (h.closed p n hsome)

/-- With a directory goes all that is below it. -/
theorem eraseTree (h : Straight Z d) (q : Place) : Straight Z (d.eraseTree q) := by
  refine h.filter (fun p => !q.isPrefixOf p) fun p n _ hstays _ => ?_
  rw [Bool.not_eq_true', ← Bool.not_eq_true, List.isPrefixOf_iff_prefix] at hstays ⊢
  exact fun hp => hstays (hp.trans (List.prefix_append _ _))

/-- A new directory stands in one, and is no link. -/
theorem makeDir (h : Straight Z d) (hd : d.makeDir cwd path = .ok d') : Straight Z d' := by
  obtain ⟨q, hq, hnone, rfl⟩ := makeDir_eq_ok hd
  obtain ⟨p, n, rfl, hp⟩ := (find_eq_ok_iff.mp hq).2.parent_isDir h.closed rfl hnone
  exact h.put hp (by rw [hnone]; exact nofun) nofun

/-- A file that is written stands in a directory, or over a file. -/
theorem write {content : Bytes} (h : Straight Z d) (hd : d.write cwd path content = .ok d') :
    Straight Z d' := by
  obtain ⟨-, q, hq, hover, rfl⟩ := write_eq_ok hd
  have hparent : q = [] ∨ ∃ p n, q = p ++ [n] ∧ d.get? p = some .dir := by
    cases hstands : d.get? q with
    | none => exact Or.inr ((find_eq_ok_iff.mp hq).2.parent_isDir h.closed rfl hstands)
    | some node =>
        induction q using List.reverseRecOn with
        | nil => exact Or.inl rfl
        | append_singleton p n => exact Or.inr ⟨p, n, rfl, h.closed p n (by rw [hstands]; rfl)⟩
  obtain rfl | ⟨p, n, rfl, hp⟩ := hparent
  · exact absurd rfl hover
  · exact h.put hp hover nofun

theorem unlink (h : Straight Z d) (hd : d.unlink cwd path = .ok d') : Straight Z d' := by
  obtain ⟨q, -, hq, rfl⟩ := unlink_eq_ok hd
  exact h.erase hq

theorem discard (h : Straight Z d) (hd : d.discard cwd path = .ok d') : Straight Z d' := by
  obtain rfl | ⟨q, -, rfl⟩ := discard_eq_ok hd
  · exact h
  · exact h.eraseTree q

/-- A link may be made where the condition asks for none at all. -/
theorem makeLink {target : String} (h : Straight Z d) (hZ : ∀ q, ¬Z q)
    (hd : d.makeLink cwd path target = .ok d') : Straight Z d' := by
  obtain ⟨q, hq, hnone, rfl⟩ := makeLink_eq_ok hd
  obtain ⟨p, n, rfl, hp⟩ := (find_eq_ok_iff.mp hq).2.parent_isDir h.closed rfl hnone
  exact h.put hp (by rw [hnone]; exact nofun) fun _ _ => hZ _

/-- A directory and what is below it are taken away, or at least what is below it. -/
theorem removeTree (h : Straight Z d) (cwd path : Path) :
    Straight Z (endState (Disk.removeTree cwd path d)) := by
  have hbelow : ∀ q, Straight Z (d.eraseBelow q) := by
    intro q
    refine h.filter (fun p => p = q || !q.isPrefixOf p) fun p n _ hstays _ => ?_
    rw [Bool.or_eq_true, decide_eq_true_eq, Bool.not_eq_true', ← Bool.not_eq_true,
      List.isPrefixOf_iff_prefix] at hstays ⊢
    refine Or.inr fun hp => ?_
    obtain rfl | hout := hstays
    · exact absurd hp.length_le (by simp)
    · exact hout (hp.trans (List.prefix_append _ _))
  unfold Disk.removeTree
  split
  · exact h
  split
  · exact h
  rename_i q _
  split
  · exact h
  · unfold removeTreeAt
    cases hremove : (d.eraseBelow q).removeDir cwd path with
    | error e => exact hbelow q
    | ok d' =>
        obtain ⟨r, hr, rfl⟩ := removeDir_eq_ok hremove
        refine (hbelow q).filter (fun p => p ≠ r) fun p n hsome _ hp => decide_eq_true ?_
        rintro rfl
        -- what is removed was empty, so nothing can be below it
        rw [get?_of_isEmptyAt hr] at hsome
        cases hsome
  · exact h
  · split <;> exact h

end Straight

/-! ## Edits -/

/-- What making one directory keeps is kept when all that are missing are made. -/
theorem keeps_enterDir_of_makeDir {P : Disk → Prop} {onMissing : Edit Unit}
    (hP : ∀ cwd path d d', P d → d.makeDir cwd path = .ok d' → P d') (h : Keeps P onMissing) :
    Keeps P (enterDir cwd path onMissing) := by
  intro d hd
  obtain hend | hend | ⟨q, hq, hnone, hend⟩ := endState_enterDir cwd path onMissing d
  · rw [hend]
    exact hd
  · rw [hend]
    exact h d hd
  · rw [hend]
    exact hP cwd path d _ hd (by unfold Disk.makeDir; rw [hq]; simp [hnone])

/-- The same of all directories of a way, by induction on its names from the last one back. -/
theorem keeps_makeDirs_of_makeDir {P : Disk → Prop}
    (hP : ∀ cwd path d d', P d → d.makeDir cwd path = .ok d' → P d') (cwd path : Path) :
    Keeps P (makeDirs cwd path) := by
  have hfrom : ∀ reversed, Keeps P (makeDirsFrom cwd path.anchor reversed) := by
    intro reversed
    induction reversed with
    | nil => exact keeps_enterDir_of_makeDir hP (Step.keeps_throw _)
    | cons n up ih =>
        refine keeps_enterDir_of_makeDir hP (Step.keeps_bind ih fun _ => ?_)
        exact keeps_enterDir_of_makeDir hP (Step.keeps_throw _)
  exact Step.keeps_bind (Step.keeps_ofExcept _ _) fun _ => hfrom _

/-- Directories that are made leave the places straight. -/
theorem keeps_straight_makeDirs (cwd path : Path) : Keeps (Straight Z) (makeDirs cwd path) :=
  keeps_makeDirs_of_makeDir (fun _ _ _ _ h hd => h.makeDir hd) cwd path

/-- So does a file that is written below them. -/
theorem keeps_straight_writeWithParents (cwd path : Path) (content : Bytes) :
    Keeps (Straight Z) (writeWithParents cwd path content) :=
  Step.keeps_bind (keeps_straight_makeDirs cwd _) fun _ =>
    Step.keeps_attempt fun _ _ hd h => hd.write h

end Disk

/-- An effect that makes no link, and any effect where links do not matter. -/
theorem Effect.keeps_straight {Z : Place → Prop} {e : Effect}
    (he : e.makesLink = true → ∀ q, ¬Z q) (cwd : Path) :
    Keeps (Disk.Straight Z) (e.apply cwd) := by
  cases e with
  | write p content => exact Disk.keeps_straight_writeWithParents cwd _ content
  | makeDir p => exact Disk.keeps_straight_makeDirs cwd _
  | link p target =>
      exact Step.keeps_bind (Disk.keeps_straight_makeDirs cwd _) fun _ =>
        Step.keeps_attempt fun _ _ hd h => hd.makeLink (he rfl) h
  | remove p => exact Step.keeps_attempt fun _ _ hd h => hd.discard h

/-- Effects that make no link leave the places straight, one after the other. -/
theorem Effect.keeps_straight_applyAll {Z : Place → Prop} {es : List Effect}
    (hes : ∀ e ∈ es, e.makesLink = false) (cwd : Path) :
    Keeps (Disk.Straight Z) (Effect.applyAll cwd es) := by
  refine Effect.keeps_applyAll fun e he => Effect.keeps_straight (fun h => ?_) cwd
  rw [hes e he] at h
  cases h

/-! ## Direct paths -/

/-- A path from the root on, by names that go up nowhere. -/
structure Path.Direct (p : Path) : Prop where
  isAbsolute : p.isAbsolute = true
  canonical : p.Canonical
  noUp : ".." ∉ p.names

namespace Path.Direct

variable {p : Path}

theorem isFileName (h : p.Direct) : ∀ n ∈ p.names, IsFileName n := by
  intro n hn
  refine ⟨(h.canonical n hn).1, ?_, (h.canonical n hn).2⟩
  rintro rfl
  exact h.noUp hn

/-- A path from the root with plain names says where it leads. -/
theorem absoluteNames_eq (h : p.Direct) (cwd : Path) : p.absoluteNames cwd = p.names := by
  show (cwd.append p).names = p.names
  rw [append, if_pos h.isAbsolute]

/-- Its text names it from everywhere. -/
theorem div_text (h : p.Direct) (dir : Path) : dir / p.text = p := by
  show dir.append (ofString p.text) = p
  rw [ofString_text h.canonical, append, if_pos h.isAbsolute]

/-- An artifact of a directory with such a path has such a path. -/
theorem artifact (h : p.Direct) (a : Artifact) : (a.path p).Direct := by
  have hpath := a.path_eq p
  refine ⟨by rw [hpath]; exact h.isAbsolute, h.canonical.div a.name, ?_⟩
  rw [hpath, List.mem_append, List.mem_singleton]
  rintro (hup | hup)
  · exact h.noUp hup
  · exact a.name_ne_dotdot hup.symm

end Path.Direct

/-- The name of a workspace is direct if the directory for it is. -/
theorem Workspace.direct_numbered {temp : Path} (habsolute : temp.isAbsolute = true)
    (hup : ".." ∉ (Path.ofString temp.text).names) (n : Nat) : (numbered temp n).Direct := by
  refine ⟨isAbsolute_numbered habsolute n, Path.canonical_ofString _, ?_⟩
  rw [names_numbered, List.mem_append, List.mem_singleton]
  rintro (h | h)
  · exact hup h
  · exact (isFileName_numbered n).notUp h.symm

/-- On the way to a directory, or below it. -/
def Near (dir : Path) (q : Place) : Prop := q <+: dir.names ∨ dir.names <+: q

namespace Disk.Straight

variable {Z : Place → Prop} {d d' : Disk} {q : Place} {aim : Aim} {cwd path : Path}

/-- Where no link stands on the way, a path leads to the place of its own names. -/
theorem find_eq (h : Straight Z d) (hpath : path.Direct) (hZ : ∀ pre, pre <+: path.names → Z pre)
    (hq : d.find cwd aim path = .ok q) : q = path.names := by
  have hleads := (find_eq_ok_iff.mp hq).2
  rw [hpath.absoluteNames_eq] at hleads
  refine hleads.direct hpath.isFileName fun pre hpre target hstands => ?_
  exact absurd hstands (h.noLink pre (hZ pre hpre) target)

/-- Names that meet no link have nothing behind them if a look-up says that there is no
    entry. -/
theorem get?_of_locateWith {onLink : Place → List String → Except Errno Place}
    {names : List String} {here : Place} (h : Straight Z d)
    (hnames : ∀ n ∈ names, Path.IsFileName n) (hZ : ∀ pre, pre <+: names → Z (here ++ pre))
    (herror : locateWith onLink d .entry here names = .error .noEntry) :
    d.get? (here ++ names) = none := by
  induction names generalizing here with
  | nil => cases herror
  | cons n rest ih =>
      obtain ⟨hn, hrest⟩ := List.forall_mem_cons.mp hnames
      have hat := atName onLink d .entry here n rest
      generalize locateWith onLink d .entry here (n :: rest) = r at hat herror
      cases hat with
      | nowhere hhere => exact h.closed.get?_below hhere _
      | missingBefore _ hnone =>
          rw [List.append_cons]
          exact h.closed.get?_below hnone rest
      | follow _ hlink => exact absurd hlink (h.noLink _ (hZ [n] (List.prefix_append [n] rest)) _)
      | enter =>
          rw [List.append_cons]
          refine ih hrest (fun pre hpre => ?_) herror
          rw [← List.append_cons]
          exact hZ (n :: pre) (List.cons_prefix_cons.mpr ⟨rfl, hpre⟩)
      | skip _ hskip =>
          rw [hn.isName] at hskip
          cases hskip
      | up _ hdots => exact absurd hdots hn.notUp
      -- elsewhere the look-up ends in another error, or in none
      | noDir | trailing | tooLong | missing | link => cases herror

/-- Where a look-up says that there is no entry, nothing stands. -/
theorem get?_of_noEntry (h : Straight Z d) (hpath : path.Direct)
    (hZ : ∀ pre, pre <+: path.names → Z pre) (hq : d.find cwd .entry path = .error .noEntry) :
    d.get? path.names = none := by
  unfold find at hq
  split at hq
  · cases hq
  rw [hpath.absoluteNames_eq] at hq
  show d.get? ([] ++ path.names) = none
  exact h.get?_of_locateWith hpath.isFileName hZ hq

/-- A directory that was just made under a straight way has a straight way to all that
    may be put below it. -/
theorem enter {base : Place} {n : String} (h : Straight (· <+: base) d) (hpath : path.Direct)
    (hnames : path.names = base ++ [n]) (hd : d.makeDir cwd path = .ok d') :
    Straight (Near path) d' := by
  have hclosed := (h.makeDir hd).closed
  obtain ⟨q, hq, hnone, rfl⟩ := makeDir_eq_ok hd
  have hleads := (find_eq_ok_iff.mp hq).2
  rw [hpath.absoluteNames_eq] at hleads
  have hplace : q = path.names := by
    refine hleads.direct hpath.isFileName fun pre hpre target hstands => ?_
    rw [hnames] at hpre ⊢
    obtain rfl | hbase := List.prefix_concat_iff.mp hpre
    · exact ⟨rfl, rfl⟩
    -- short of the last name no link stands on the way; at the last one there is nothing yet
    · exact absurd hstands (h.noLink pre hbase target)
  subst hplace
  refine ⟨hclosed, fun q hq target => ?_⟩
  rw [get?_put _ _ _ _ (by rw [hnames]; simp)]
  split
  · exact nofun
  · rename_i hne
    unfold Near at hq
    rw [hnames] at hq hne
    obtain hpre | hbelow := hq
    · obtain rfl | hbase := List.prefix_concat_iff.mp hpre
      · exact absurd rfl hne
      · exact h.noLink q hbase target
    · obtain ⟨rest, rfl⟩ := hbelow
      rw [← hnames, h.closed.get?_below hnone]
      exact nofun

end Disk.Straight

/-! ## Worlds -/

/-- At these places stands no link, and no process is going to make one. -/
structure World.Straight (Z : Place → Prop) (w : World) : Prop where
  disk : w.disk.Straight Z
  linkless : ∀ p ∈ w.script, ∀ e ∈ p.effects, e.makesLink = false

namespace World.Straight

variable {Z : Place → Prop} {w w' : World}

theorem linkless_headD (h : w.Straight Z) :
    ∀ e ∈ (w.script.headD .idle).effects, e.makesLink = false := by
  cases hscript : w.script with
  | nil => exact fun e he => absurd he List.not_mem_nil
  | cons p rest => exact h.linkless p (hscript ▸ List.mem_cons_self)

/-- A case leaves the places straight: its own edits make no link, and neither do its
    processes. -/
theorem lasts (Z : Place → Prop) (dir : Path) :
    Lasts (World.Straight Z) (fun _ => True) dir where
  quiet := fun hx => hx.keeps fun w w' hdisk hrecord h =>
    ⟨hdisk ▸ h.disk, World.script_of_record hrecord ▸ h.linkless⟩
  run := by
    intro c _ w h
    have hran := Command.ran_run c w
    refine ⟨?_, fun p hp => h.linkless p (List.mem_of_mem_tail (hran.script_eq ▸ hp))⟩
    obtain hdisk | hdisk := hran.disk
    · rw [hdisk]
      exact h.disk
    · rw [hdisk]
      exact Effect.keeps_straight_applyAll h.linkless_headD _ _ h.disk
  store := by
    intro a content w h
    rw [endState_store]
    exact ⟨Disk.keeps_straight_writeWithParents _ _ _ _ h.disk, h.linkless⟩
  remove := by
    intro a w h
    obtain hend | ⟨d, hunlink, hend⟩ := endState_removeIfPresent (a.path dir) w
    · rw [hend]
      exact h
    · rw [hend]
      exact ⟨h.disk.unlink hunlink, h.linkless⟩

/-- The removal of a workspace makes no link. -/
theorem keeps_leave (dir : Path) : Keeps (World.Straight Z) (Workspace.leave dir) := by
  intro w h
  refine ⟨by rw [disk_leave]; exact h.disk.removeTree w.cwd dir, ?_⟩
  have hrecord := startsNothing_leave dir w.record w rfl
  exact World.script_of_record hrecord
    ▸ h.linkless

end World.Straight

/-- Workspaces are made by a plain path: absolute, without `..`, with no link on the way;
    and no process is going to make a link. -/
structure World.Plain (w : World) : Prop where
  straight : w.Straight (· <+: (Path.ofString w.tempDir.text).names)
  isAbsolute : w.tempDir.isAbsolute = true
  noUp : ".." ∉ (Path.ofString w.tempDir.text).names

/-- No action moves the temporary directory. -/
theorem lasts_tempDir (temp dir : Path) :
    Lasts (fun w => w.tempDir = temp) (fun _ => True) dir := by
  refine .of_record (fun w w' hrecord h => ?_) fun c _ w h => ?_
  · exact (World.tempDir_of_record hrecord).trans h
  · obtain ⟨_, _, _, _, _, hran⟩ := (Command.ran_run c w).changed
    rw [hran]
    exact h

namespace World.Plain

open Workspace (numbered)

variable {w : World} {α : Type}

/-- The path of a workspace is direct, since that of the temporary directory is. -/
theorem direct_numbered (h : w.Plain) (n : Nat) : (numbered w.tempDir n).Direct :=
  Workspace.direct_numbered h.isAbsolute h.noUp n

/-- A plain world is kept by what keeps its parts. -/
theorem keeps {x : Action World α} (hstraight : ∀ Z, Keeps (World.Straight Z) x)
    (htemp : ∀ temp, Keeps (fun w => w.tempDir = temp) x) : Keeps World.Plain x := by
  intro w h
  have heq : (endState (x w)).tempDir = w.tempDir := htemp _ w rfl
  exact ⟨heq ▸ hstraight _ w h.straight, heq ▸ h.isAbsolute, heq ▸ h.noUp⟩

theorem lasts (dir : Path) : Lasts World.Plain (fun _ => True) dir where
  quiet := fun hx => keeps (fun Z => (World.Straight.lasts Z dir).quiet hx) fun temp =>
    (lasts_tempDir temp dir).quiet hx
  run := fun c hc => keeps (fun Z => (World.Straight.lasts Z dir).run c hc) fun temp =>
    (lasts_tempDir temp dir).run c hc
  store := fun a content => keeps (fun Z => (World.Straight.lasts Z dir).store a content)
    fun temp => (lasts_tempDir temp dir).store a content
  remove := fun a => keeps (fun Z => (World.Straight.lasts Z dir).remove a) fun temp =>
    (lasts_tempDir temp dir).remove a

theorem keeps_leave (dir : Path) : Keeps World.Plain (Workspace.leave dir) :=
  keeps (fun _ => World.Straight.keeps_leave dir) fun _ => (startsNothing_leave dir).keeps
    fun _ _ hrecord h => (World.tempDir_of_record hrecord).trans h

/-- A workspace was made, and what may be put into it can be reached by a straight way. -/
theorem enter {n count : Nat} {d : Disk} {stderr : String} (h : w.Plain)
    (hmake : w.disk.makeDir w.cwd (numbered w.tempDir n) = .ok d) :
    let dir := numbered w.tempDir n
    let w' : World := { w with disk := d, workspaceCount := count, stderr := stderr }
    w'.Plain ∧ w'.Straight (Near dir) :=
  ⟨⟨⟨h.straight.disk.makeDir hmake, h.straight.linkless⟩, h.isAbsolute, h.noUp⟩,
    h.straight.disk.enter (h.direct_numbered n) (Workspace.names_numbered w.tempDir n) hmake,
    h.straight.linkless⟩

end World.Plain

end RoundTrip
