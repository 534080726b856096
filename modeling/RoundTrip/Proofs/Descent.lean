import RoundTrip.Proofs.Discovery
import RoundTrip.Proofs.Workspace

/-! # Going down from a directory

    `LiesBelow` is the walk as a relation: through directories, through no link, to an
    entry that is taken for no directory.  It carries the path that the walk has written
    so far, since a directory is listed only if its path is short enough.
    **`mem_walk_iff`**: on a disk where only directories have anything below them, the
    walk lists just this. -/

namespace RoundTrip

namespace Path

variable {p : Path} {names : List String}

theorem descend_nil (p : Path) : p.descend [] = p := congrArg (Path.mk _) (List.append_nil _)

/-- To descend twice is to descend by all the names. -/
theorem descend_descend (p : Path) (above names : List String) :
    (p.descend above).descend names = p.descend (above ++ names) :=
  congrArg (Path.mk _) (List.append_assoc _ _ _)

/-- A descent is put behind the absolute names. -/
theorem absoluteNames_descend (p : Path) (names : List String) (cwd : Path) :
    (p.descend names).absoluteNames cwd = p.absoluteNames cwd ++ names := by
  show (cwd.append _).names = (cwd.append p).names ++ names
  cases ha : p.anchor <;> simp [append, isAbsolute, descend, ha]

/-- A path is no longer than a path further down. -/
theorem text_le_descend (hnames : ∀ n ∈ names, n ≠ "") :
    p.text.utf8ByteSize ≤ (p.descend names).text.utf8ByteSize := by
  induction names generalizing p with
  | nil => rw [descend_nil]
  | cons n rest ih =>
      obtain ⟨hn, hrest⟩ := List.forall_mem_cons.mp hnames
      calc p.text.utf8ByteSize ≤ (p.descend [n]).text.utf8ByteSize := text_le_concat p hn
        _ ≤ ((p.descend [n]).descend rest).text.utf8ByteSize := ih hrest
        _ = (p.descend (n :: rest)).text.utf8ByteSize := by
          rw [descend_descend, List.singleton_append]

end Path

namespace Disk

variable {d : Disk} {cwd p : Path} {place q : Place} {n : String} {names above : List String}

/-- A directory can be listed if its text is within the limit. -/
theorem canList_iff : canList p = true ↔ p.text.utf8ByteSize ≤ textLimit := decide_eq_true_iff

/-- Where the path of a directory is short enough, so is that of each directory above it. -/
theorem canList_of_descend (hnames : ∀ n ∈ names, n ≠ "") (h : canList (p.descend names) = true) :
    canList p = true :=
  canList_iff.mpr (le_trans (Path.text_le_descend hnames) (canList_iff.mp h))

/-- A walk takes an entry for a directory: it is one, or a link that can be followed to one by its
    path. -/
inductive TakenForDir (d : Disk) (cwd p : Path) (q : Place) : Prop where
  | dir (stands : d.get? q = some .dir)
  | link {target : String} {place : Place} (stands : d.get? q = some (.link target))
      (found : d.find cwd .target p = .ok place) (isDir : d.get? place = some .dir)

/-- The test of the walk is the predicate that the theorems use. -/
theorem countsAsDir_iff : d.countsAsDir cwd p q = true ↔ d.TakenForDir cwd p q := by
  unfold countsAsDir
  constructor
  · intro h
    cases hnode : d.get? q with
    | none => simp [hnode] at h
    | some node =>
        cases node with
        | file content => simp [hnode] at h
        | dir => exact .dir hnode
        | link target =>
            cases hfind : d.find cwd .target p with
            | error e => simp [hnode, status_of_find_error hfind] at h
            | ok place =>
                refine .link hnode hfind ?_
                simp only [hnode, status_of_find hfind] at h
                cases hplace : d.get? place with
                | none => simp [hplace] at h
                | some node' => simpa [hplace] using h
  · intro h
    cases h with
    | dir stands => simp [stands]
    | link stands found isDir => simp [stands, status_of_find found, isDir]

/-- Going down from a directory through directories that can be listed, these names end at an
    entry that is taken for no directory.  The directory stands at a place, and the path is the
    one that is written for it. -/
inductive LiesBelow (d : Disk) (cwd : Path) : Path → Place → List String → Prop where
  | entry {p : Path} {place : Place} {n : String} (listed : canList p = true)
      (stands : (d.get? (place ++ [n])).isSome)
      (noDir : ¬d.TakenForDir cwd (p.descend [n]) (place ++ [n])) : LiesBelow d cwd p place [n]
  | descend {p : Path} {place : Place} {n : String} {names : List String}
      (listed : canList p = true) (isDir : d.get? (place ++ [n]) = some .dir)
      (tail : LiesBelow d cwd (p.descend [n]) (place ++ [n]) names) :
      LiesBelow d cwd p place (n :: names)

/-- What lies below is known by its last directory and its last name. -/
theorem LiesBelow.exists_last (h : d.LiesBelow cwd p place names) :
    ∃ above n, names = above ++ [n] ∧ canList (p.descend above) = true
      ∧ (d.get? (place ++ names)).isSome
      ∧ ¬d.TakenForDir cwd (p.descend names) (place ++ names) := by
  induction h with
  | @entry p place n listed stands noDir =>
      exact ⟨[], n, rfl, by rwa [Path.descend_nil], stands, noDir⟩
  | @descend p place n names listed isDir tail ih =>
      obtain ⟨above, m, rfl, hlisted, hstands, hdir⟩ := ih
      rw [Path.descend_descend, List.singleton_append] at hlisted hdir
      rw [List.append_assoc, List.singleton_append] at hstands hdir
      exact ⟨n :: above, m, rfl, hlisted, hstands, hdir⟩

/-- What lies below a directory lies there under a name at least. -/
theorem LiesBelow.ne_nil (h : d.LiesBelow cwd p place names) : names ≠ [] := by
  cases h <;> exact List.cons_ne_nil _ _

/-- What lies below a directory stands on the disk. -/
theorem LiesBelow.stands (h : d.LiesBelow cwd p place names) :
    (d.get? (place ++ names)).isSome := by
  obtain ⟨-, -, -, -, hstands, -⟩ := h.exists_last
  exact hstands

/-- What stands below a place goes through a directory with its first name. -/
theorem Closed.isDir_of_below (hd : d.Closed) {n m : String}
    (h : (d.get? (place ++ n :: m :: names)).isSome) : d.get? (place ++ [n]) = some .dir := by
  have hnext : (d.get? (place ++ [n] ++ [m])).isSome := by
    rw [Option.isSome_iff_ne_none]
    intro hnone
    have hbelow := hd.get?_below hnone names
    rw [show place ++ [n] ++ [m] ++ names = place ++ n :: m :: names by simp] at hbelow
    rw [hbelow] at h
    cases h
  exact hd _ _ hnext

/-- On a disk where only directories have anything below them, the last directory and the last
    name are enough. -/
theorem LiesBelow.of_last (hd : d.Closed) (habove : ∀ m ∈ above, m ≠ "")
    (hlisted : canList (p.descend above) = true)
    (hstands : (d.get? (place ++ (above ++ [n]))).isSome)
    (hdir : ¬d.TakenForDir cwd (p.descend (above ++ [n])) (place ++ (above ++ [n]))) :
    d.LiesBelow cwd p place (above ++ [n]) := by
  induction above generalizing p place with
  | nil =>
      rw [Path.descend_nil] at hlisted
      exact .entry hlisted hstands hdir
  | cons m above ih =>
      obtain ⟨-, hrest⟩ := List.forall_mem_cons.mp habove
      -- something stands below this name, so it is one of a directory
      have hm : d.get? (place ++ [m]) = some .dir := by
        cases above with
        | nil => exact hd.isDir_of_below hstands
        | cons m' above => exact hd.isDir_of_below hstands
      refine .descend (canList_of_descend habove hlisted) hm (ih hrest ?_ ?_ ?_)
      · rwa [Path.descend_descend, List.singleton_append]
      · rwa [List.append_assoc, List.singleton_append]
      · rwa [Path.descend_descend, List.append_assoc, List.singleton_append]

theorem mem_places (hne : place ≠ []) (h : (d.get? place).isSome) : place ∈ d.places := by
  obtain ⟨node, hnode⟩ := Option.isSome_iff_exists.mp h
  unfold get? at hnode
  rw [if_neg hne] at hnode
  exact List.mem_map.mpr ⟨_, mem_of_find? hnode, rfl⟩

/-- At a place that is listed something stands. -/
theorem isSome_of_mem_places (h : place ∈ d.places) : (d.get? place).isSome := by
  have hfind : ∀ es : List (Place × Node), place ∈ es.map (·.1) → (find? place es).isSome := by
    intro es
    induction es with
    | nil => simp
    | cons e es ih =>
        intro hmem
        rw [find?]
        split
        · rfl
        · rename_i hne
          exact ih ((List.mem_cons.mp hmem).resolve_left fun heq => hne heq.symm)
  unfold get?
  split
  · rfl
  · exact hfind _ h

/-- **A walk finds what lies below.** -/
theorem mem_walk_iff (hd : d.Closed) (hnamed : d.WellNamed) :
    names ∈ d.walk cwd p place ↔ d.LiesBelow cwd p place names := by
  rw [mem_walk]
  constructor
  · rintro ⟨hmem, hne, hlisted, hdir⟩
    obtain ⟨above, n, rfl⟩ := (List.eq_nil_or_concat' names).resolve_left hne
    rw [List.dropLast_concat] at hlisted
    -- every place of a closed disk is below directories, so a place and its last directory are
    -- all that the walk has to look at
    refine .of_last hd (fun m hm => ?_) hlisted (isSome_of_mem_places hmem) ?_
    · exact (hnamed _ hmem m (by simp [hm])).ne_empty
    · rw [← countsAsDir_iff, hdir]
      exact Bool.false_ne_true
  · intro h
    obtain ⟨above, n, rfl, hlisted, hstands, hdir⟩ := h.exists_last
    refine ⟨mem_places (by simp) hstands, by simp, by rwa [List.dropLast_concat], ?_⟩
    rw [Bool.eq_false_iff, ne_eq, countsAsDir_iff]
    exact hdir

/-! ## Directories on the way down -/

/-- Going down from a directory through directories, these names end at one. -/
inductive DirsBelow (d : Disk) : Place → List String → Prop where
  | here (place : Place) : DirsBelow d place []
  | descend {place : Place} {n : String} {names : List String}
      (isDir : d.get? (place ++ [n]) = some .dir) (tail : DirsBelow d (place ++ [n]) names) :
      DirsBelow d place (n :: names)

/-- What lies below a directory that is reached by directories lies below their first one. -/
theorem LiesBelow.append (habove : d.DirsBelow place above) (hnames : ∀ n ∈ above, n ≠ "")
    (h : d.LiesBelow cwd (p.descend above) (place ++ above) names) :
    d.LiesBelow cwd p place (above ++ names) := by
  induction habove generalizing p with
  | here => rwa [Path.descend_nil, List.append_nil] at h
  | @descend place n above isDir _ ih =>
      -- what is listed further down has the longer path
      have hlisted : canList (p.descend (n :: above)) = true := by
        cases h <;> assumption
      refine .descend (canList_of_descend hnames hlisted) isDir
        (ih (List.forall_mem_cons.mp hnames).2 ?_)
      rwa [Path.descend_descend, List.append_assoc, List.singleton_append]

/-! ## The current directory

    A walk of the current directory writes `.` before each name.  So it asks for everything by a
    path that is longer than needed, and what can be found by that path is found without the `.`
    too. -/

/-- What is found by a path that starts with `.` is found without it. -/
theorem find_of_dot (hne : names ≠ []) (h : d.find cwd .target (dot.descend names) = .ok q) :
    d.find cwd .target ⟨.here, names⟩ = .ok q := by
  obtain ⟨hsize, hleads⟩ := find_eq_ok_iff.mp h
  obtain ⟨n, rest, rfl⟩ := List.exists_cons_of_ne_nil hne
  refine find_eq_ok_iff.mpr ⟨le_trans ?_ hsize, ?_⟩
  · show (Path.text ⟨.here, n :: rest⟩).utf8ByteSize
      ≤ (Path.text ⟨.here, "." :: n :: rest⟩).utf8ByteSize
    unfold Path.text
    rw [if_neg (by simp), if_neg (by simp), Path.joinNames_cons]
    simp only [String.utf8ByteSize_append]
    omega
  · show Leads d .target linkLimit [] (cwd.names ++ n :: rest) q
    exact Leads.without_skip (n := ".") hleads (by decide)

/-- What is a directory by a path from here is one by the same names after a dot. -/
theorem TakenForDir.of_dot (hne : names ≠ [])
    (h : d.TakenForDir cwd (dot.descend names) q) : d.TakenForDir cwd ⟨.here, names⟩ q := by
  cases h with
  | dir stands => exact .dir stands
  | link stands found isDir => exact .link stands (find_of_dot hne found) isDir

/-- What lies below a directory lies below it also for a walk that starts further up, as long as
    the walk of the current directory can list it. -/
theorem LiesBelow.of_walkStart {root : Path} (hd : d.Closed) (habove : ∀ m ∈ above, m ≠ "")
    (hreach : root = ⟨.here, []⟩ → canList ((walkStart root).descend (names ++ above)) = true)
    (h : d.LiesBelow cwd (walkStart (root.descend names)) place (above ++ [n])) :
    d.LiesBelow cwd ((walkStart root).descend names) place (above ++ [n]) := by
  -- only the current directory is walked by another path than its own
  by_cases hroot : root = ⟨.here, []⟩
  · subst hroot
    cases names with
    | nil => exact h
    | cons m names =>
        rw [show walkStart (Path.descend ⟨.here, []⟩ (m :: names)) = ⟨.here, m :: names⟩
          from if_neg (by simp [Path.descend])] at h
        obtain ⟨above', n', hlast, -, hstands, hdir⟩ := h.exists_last
        refine .of_last hd habove ?_ hstands fun htaken => hdir ?_
        · rw [Path.descend_descend]
          exact hreach rfl
        · rw [Path.descend_descend] at htaken
          exact htaken.of_dot (by simp)
  · have hne : root.descend names ≠ ⟨.here, []⟩ := by
      rintro heq
      obtain ⟨hanchor, hnames⟩ := Path.mk.inj heq
      exact hroot (congrArg₂ Path.mk hanchor (List.append_eq_nil_iff.mp hnames).1)
    rw [walkStart, if_neg hne] at h
    rwa [walkStart, if_neg hroot]

/-- Names of directories lead straight down. -/
theorem Leads.eq_append {links : Nat} (h : Leads d .target links place names q)
    (hnames : ∀ n ∈ names, Path.IsFileName n) (hdirs : d.DirsBelow place names) :
    q = place ++ names := by
  induction hdirs generalizing links with
  | here =>
      cases h
      rw [List.append_nil]
  | @descend place n names isDir tail ih =>
      obtain ⟨hn, hnames⟩ := List.forall_mem_cons.mp hnames
      have htail : ∃ links', Leads d .target links' (place ++ [n]) names q := by
        cases h with
        | skip _ hskip => rw [hn.isName] at hskip; cases hskip
        | up => exact absurd rfl hn.notUp
        | missing _ hnone => rw [isDir] at hnone; cases hnone
        | link _ hlink => rw [isDir] at hlink; cases hlink
        | follow _ hlink => rw [isDir] at hlink; cases hlink
        | enter _ _ _ tail => exact ⟨_, tail⟩
      obtain ⟨_, htail⟩ := htail
      rw [ih htail hnames, List.append_assoc, List.singleton_append]

end Disk

end RoundTrip
