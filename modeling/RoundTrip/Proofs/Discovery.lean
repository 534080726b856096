import Mathlib.Data.List.Forall2
import RoundTrip.Discovery
import RoundTrip.Proofs.Command
import RoundTrip.Proofs.Resolution

/-! # What the search for sources delivers

    `mem_findSources` says which paths are delivered: the resolved paths of what
    the walks find below the roots that can be searched, as far as its name is
    accepted.  The name is judged before the path is resolved, so it matters what
    resolution makes of it: **`unaccepted_source_iff`** says exactly when a source
    with a name that is not accepted comes out. -/

namespace RoundTrip

/-- A pass over a list ends without an error exactly if it comes to one result after the
    other, in order. -/
theorem mapM_eq_ok_iff {ε α β : Type} {f : α → Except ε β} {xs : List α} {ys : List β} :
    xs.mapM f = .ok ys ↔ List.Forall₂ (fun x y => f x = .ok y) xs ys := by
  induction xs generalizing ys with
  | nil =>
      constructor
      · rintro ⟨⟩
        exact .nil
      · rintro ⟨⟩
        rfl
  | cons x xs ih =>
      rw [List.mapM_cons]
      constructor
      · intro h
        cases hx : f x with
        | error e =>
            rw [hx] at h
            cases h
        | ok y =>
            cases hxs : xs.mapM f with
            | error e =>
                rw [hx, hxs] at h
                cases h
            | ok zs =>
                rw [hx, hxs] at h
                cases h
                exact .cons hx (ih.mp hxs)
      · rintro (_ | ⟨hx, hxs⟩)
        rw [hx, ih.mpr hxs]
        rfl

/-- A pass over a list that ends without an error has collected one result for
    each element. -/
theorem collected_of_mapM_eq_ok {ε α β : Type} {f : α → Except ε β} {xs : List α} {ys : List β}
    (h : xs.mapM f = .ok ys) :
    (∀ x ∈ xs, ∃ y ∈ ys, f x = .ok y) ∧ ∀ y ∈ ys, ∃ x ∈ xs, f x = .ok y := by
  induction mapM_eq_ok_iff.mp h with
  | nil => simp
  | @cons x y xs ys hxy hrest ih =>
      obtain ⟨hforth, hback⟩ := ih (mapM_eq_ok_iff.mpr hrest)
      constructor
      · refine List.forall_mem_cons.mpr ⟨⟨y, List.mem_cons_self, hxy⟩, fun x' hx' => ?_⟩
        obtain ⟨y', hy', hf⟩ := hforth x' hx'
        exact ⟨y', List.mem_cons_of_mem _ hy', hf⟩
      · refine List.forall_mem_cons.mpr ⟨⟨x, List.mem_cons_self, hxy⟩, fun y' hy' => ?_⟩
        obtain ⟨x', hx', hf⟩ := hback y' hy'
        exact ⟨x', List.mem_cons_of_mem _ hx', hf⟩

namespace Discovery

variable {c : Criteria} {root p : Path} {roots : List Path} {w w' : World}

/-- A list with a path inserted has that path and its own. -/
theorem mem_insert {q : Path} {ps : List Path} : q ∈ insert p ps ↔ q = p ∨ q ∈ ps := by
  induction ps with
  | nil => simp [insert]
  | cons r rest ih =>
      rw [insert]
      split
      · rename_i h
        rw [h]
        simp
      split
      · simp
      · rw [List.mem_cons, ih, List.mem_cons]
        exact or_left_comm

/-- To put paths in order loses none and adds none. -/
theorem mem_inOrder {q : Path} {ps : List Path} : q ∈ inOrder ps ↔ q ∈ ps := by
  induction ps with
  | nil => simp [inOrder]
  | cons r rest ih =>
      show q ∈ insert r (inOrder rest) ↔ _
      rw [mem_insert, ih, List.mem_cons]

/-- A path is found below a root: the walk finds it there under an accepted name,
    and this is what it resolves to. -/
structure Found (w : World) (c : Criteria) (root : Path) (names : List String) (p : Path) :
    Prop where
  walked : ∃ place, w.disk.find w.cwd .target root = .ok place
    ∧ names ∈ w.disk.walk w.cwd (Disk.walkStart root) place
  accepted : c.accepts (names.getLast?.getD "") = true
  resolved : w.disk.resolve w.cwd (root.descend names) = .ok p

/-- What is delivered from a root is what was found below it. -/
theorem mem_sourcesBelow {ps : List Path} (h : sourcesBelow w c root = .ok ps) :
    p ∈ ps ↔ ∃ names, Found w c root names p := by
  unfold sourcesBelow at h
  cases hnul : Disk.checkNul root with
  | error e =>
      rw [hnul] at h
      cases h
  | ok _ =>
      simp only [hnul, bind, Except.bind] at h
      cases hfind : w.disk.find w.cwd .target root with
      | error e =>
          simp only [hfind] at h
          cases h
          simp only [List.not_mem_nil, false_iff]
          rintro ⟨names, ⟨place, hplace, -⟩, -, -⟩
          cases hfind.symm.trans hplace
      | ok place =>
          simp only [hfind] at h
          -- every name that is accepted is resolved, and every source comes of one
          obtain ⟨hforth, hback⟩ := collected_of_mapM_eq_ok h
          constructor
          · intro hp
            obtain ⟨names, hnames, hresolve⟩ := hback p hp
            obtain ⟨hwalk, haccepts⟩ := List.mem_filter.mp hnames
            exact ⟨names, ⟨place, hfind, hwalk⟩, haccepts, hresolve⟩
          · rintro ⟨names, ⟨place', hplace, hwalk⟩, haccepts, hresolve⟩
            cases hfind.symm.trans hplace
            obtain ⟨q, hq, hresolve'⟩ := hforth names (List.mem_filter.mpr ⟨hwalk, haccepts⟩)
            cases hresolve.symm.trans hresolve'
            exact hq

/-! ## The search for roots -/

theorem warnUnreadable_apply (root : Path) (w : World) :
    warnUnreadable root w = .ok ⟨⟩ { w with
      stdout :=
        w.stdout ++ ("[ast-import] warn: test directory not readable: " ++ root.text ++ "\n") } :=
  rfl

theorem readableRoots_readable {rest : List Path} (h : isReadable w root = .ok true) :
    readableRoots (root :: rest) w
      = (do let others ← readableRoots rest; pure (root :: others) : Action World _) w := by
  rw [readableRoots, Step.bind_ok (Step.get_apply w), h,
    Step.bind_ok (show Step.ofExcept Fault.path (.ok true) w = .ok true w from rfl), if_pos rfl]

/-- A root that cannot be searched is left out with a warning. -/
theorem readableRoots_skipped {rest : List Path} (h : isReadable w root = .ok false) :
    readableRoots (root :: rest) w
      = (do warnUnreadable root; readableRoots rest : Action World _) w := by
  rw [readableRoots, Step.bind_ok (Step.get_apply w), h,
    Step.bind_ok (show Step.ofExcept Fault.path (.ok false) w = .ok false w from rfl),
    if_neg Bool.false_ne_true]

/-- A root whose look-up is refused ends the choice, whatever comes after it. -/
theorem readableRoots_refused {rest : List Path} {e : PathError}
    (h : isReadable w root = .error e) :
    readableRoots (root :: rest) w = .error (.path e) w := by
  rw [readableRoots, Step.bind_ok (Step.get_apply w), h]
  rfl

/-- A root that is passed can be searched, or there is a warning of it. -/
theorem readableRoots_cons_eq_ok {rest rs : List Path}
    (h : readableRoots (root :: rest) w = .ok rs w') :
    (isReadable w root = .ok true
        ∧ ∃ others, readableRoots rest w = .ok others w' ∧ rs = root :: others)
      ∨ isReadable w root = .ok false ∧ readableRoots rest { w with
          stdout := w.stdout
            ++ ("[ast-import] warn: test directory not readable: " ++ root.text ++ "\n") }
        = .ok rs w' := by
  cases hread : isReadable w root with
  | error e =>
      rw [readableRoots_refused hread] at h
      cases h
  | ok readable =>
      cases readable with
      | true =>
          rw [readableRoots_readable hread] at h
          obtain ⟨others, w₁, hothers, hpure⟩ := Step.bind_eq_ok_iff.mp h
          cases hpure
          exact Or.inl ⟨rfl, others, hothers, rfl⟩
      | false =>
          rw [readableRoots_skipped hread, Step.bind_ok (warnUnreadable_apply root w)] at h
          exact Or.inr ⟨rfl, h⟩

/-- The search for roots only prints. -/
theorem readableRoots_eq_ok {rs : List Path} (h : readableRoots roots w = .ok rs w') :
    (∃ out, w' = { w with stdout := out })
      ∧ ∀ root, root ∈ rs ↔ root ∈ roots ∧ isReadable w root = .ok true := by
  induction roots generalizing w rs with
  | nil =>
      cases h
      exact ⟨⟨_, rfl⟩, by simp⟩
  | cons first rest ih =>
      -- a warning is printed between the look-ups, and they do not depend on it
      obtain ⟨hfirst, others, hothers, rfl⟩ | ⟨hfirst, hskipped⟩ := readableRoots_cons_eq_ok h
      · obtain ⟨hout, hmem⟩ := ih hothers
        refine ⟨hout, fun root => ?_⟩
        rw [List.mem_cons, List.mem_cons, hmem]
        constructor
        · rintro (rfl | ⟨hr, hread⟩)
          · exact ⟨Or.inl rfl, hfirst⟩
          · exact ⟨Or.inr hr, hread⟩
        · rintro ⟨rfl | hr, hread⟩
          · exact Or.inl rfl
          · exact Or.inr ⟨hr, hread⟩
      · obtain ⟨⟨out, rfl⟩, hmem⟩ := ih hskipped
        refine ⟨⟨out, rfl⟩, fun root => ?_⟩
        rw [hmem, List.mem_cons]
        constructor
        · exact fun ⟨hr, hread⟩ => ⟨Or.inr hr, hread⟩
        · rintro ⟨rfl | hr, hread⟩
          · cases hfirst.symm.trans hread
          · exact ⟨hr, hread⟩

/-! ## The sources -/

/-- **The sources are what is found below the roots that can be searched.** -/
theorem mem_findSources {sources : List Path} (h : findSources roots c w = .ok sources w') :
    p ∈ sources
      ↔ ∃ root ∈ roots, isReadable w root = .ok true ∧ ∃ names, Found w c root names p := by
  unfold findSources at h
  obtain ⟨readable, w₁, hreadable, h⟩ := Step.bind_eq_ok_iff.mp h
  obtain ⟨⟨out, rfl⟩, hroots⟩ := readableRoots_eq_ok hreadable
  split at h
  · cases h
  obtain ⟨_, _, hget, h⟩ := Step.bind_eq_ok_iff.mp h
  cases hget
  obtain ⟨found, _, hfound, h⟩ := Step.bind_eq_ok_iff.mp h
  obtain ⟨hmap, rfl⟩ := Step.of_ofExcept_eq_ok hfound
  -- the search below a root depends on the disk, not on what was printed before
  obtain ⟨hforth, hback⟩ := collected_of_mapM_eq_ok hmap
  obtain ⟨_, w₂, -, hpure⟩ := Step.bind_eq_ok_iff.mp h
  cases hpure
  rw [mem_inOrder, List.mem_flatten]
  constructor
  · rintro ⟨ps, hps, hp⟩
    obtain ⟨root, hroot, hbelow⟩ := hback ps hps
    obtain ⟨hmem, hread⟩ := (hroots root).mp hroot
    obtain ⟨names, hf⟩ := (mem_sourcesBelow hbelow).mp hp
    exact ⟨root, hmem, hread, names, hf.walked, hf.accepted, hf.resolved⟩
  · rintro ⟨root, hmem, hread, names, hf⟩
    obtain ⟨ps, hps, hbelow⟩ := hforth root ((hroots root).mpr ⟨hmem, hread⟩)
    exact ⟨ps, hps, (mem_sourcesBelow hbelow).mpr ⟨names, hf.walked, hf.accepted, hf.resolved⟩⟩

/-! ## Exclusion -/

/-- What a walk finds goes down by at least one name, and its names are names of
    entries. -/
theorem exists_last_of_walk {d : Disk} {cwd start : Path} {place : Place} {names : List String}
    (hd : d.WellNamed) (h : names ∈ d.walk cwd start place) :
    ∃ above n, names = above ++ [n] ∧ Path.IsFileName n := by
  obtain ⟨hmem, hne, -, -⟩ := Disk.mem_walk.mp h
  refine ⟨names.dropLast, names.getLast hne, (List.dropLast_concat_getLast hne).symm, ?_⟩
  exact hd _ hmem _ (List.mem_append_right _ (List.getLast_mem hne))

/-- **When a source with a name that is not accepted comes out.**  That happens
    exactly where something that the walk finds under an accepted name resolves to
    such a name, and then a symbolic link with the accepted name stands on the
    disk. -/
theorem unaccepted_source_iff {sources : List Path} (hd : w.disk.WellNamed)
    (h : findSources roots c w = .ok sources w') :
    (∃ p ∈ sources, c.accepts p.name = false)
      ↔ ∃ root ∈ roots, isReadable w root = .ok true ∧ ∃ above n p,
        Found w c root (above ++ [n]) p ∧ c.accepts n = true ∧ c.accepts p.name = false
          ∧ ∃ place target, w.disk.get? (place ++ [n]) = some (.link target) := by
  constructor
  · rintro ⟨p, hp, hname⟩
    obtain ⟨root, hroot, hread, names, hf⟩ := (mem_findSources h).mp hp
    obtain ⟨place, hplace, hwalk⟩ := hf.walked
    obtain ⟨above, n, rfl, hn⟩ := exists_last_of_walk hd hwalk
    have haccepts : c.accepts n = true := by simpa using hf.accepted
    refine ⟨root, hroot, hread, above, n, p, hf, haccepts, hname, ?_⟩
    have hlast : (root.descend (above ++ [n])).names.getLast? = some n := by
      show (root.names ++ (above ++ [n])).getLast? = some n
      rw [← List.append_assoc, List.getLast?_concat]
    obtain rfl | hlink := Disk.name_resolve hn hlast hf.resolved
    · rw [haccepts] at hname
      cases hname
    · exact hlink
  · rintro ⟨root, hroot, hread, above, n, p, hf, -, hname, -⟩
    exact ⟨p, (mem_findSources h).mpr ⟨root, hroot, hread, _, hf⟩, hname⟩

/-- A disk on which a link under another name leads to a file that is excluded. -/
def linkedDisk : Disk :=
  ⟨[(["t"], .dir), (["t", "a.sol"], .link "boost_filesystem_bug.sol"),
    (["t", "boost_filesystem_bug.sol"], .file [])]⟩

/-- The link brings in the excluded file. -/
theorem excluded_source_by_link :
    ∃ sources w', findSources [⟨.root, ["t"]⟩] ⟨".sol", ["boost_filesystem_bug.sol"]⟩
        (.fresh linkedDisk ⟨.root, []⟩ []) = .ok sources w'
      ∧ ⟨.root, ["t", "boost_filesystem_bug.sol"]⟩ ∈ sources
      ∧ ∃ place n target, linkedDisk.get? (place ++ [n]) = some (.link target) := by
  have hsources : (match findSources [⟨.root, ["t"]⟩] ⟨".sol", ["boost_filesystem_bug.sol"]⟩
      (.fresh linkedDisk ⟨.root, []⟩ []) with
      | .ok sources _ => decide (sources = [⟨.root, ["t", "boost_filesystem_bug.sol"]⟩])
      | .error _ _ => false) = true := by decide +kernel
  cases h : findSources [⟨.root, ["t"]⟩] ⟨".sol", ["boost_filesystem_bug.sol"]⟩
      (.fresh linkedDisk ⟨.root, []⟩ []) with
  | error e w' =>
      rw [h] at hsources
      cases hsources
  | ok sources w' =>
      rw [h] at hsources
      obtain rfl := of_decide_eq_true hsources
      obtain ⟨_, -, -, _, n, _, -, -, -, place, target, hlink⟩ :=
        (unaccepted_source_iff (by decide) h).mp ⟨_, List.mem_singleton.mpr rfl, by decide⟩
      exact ⟨_, w', rfl, List.mem_singleton.mpr rfl, place, n, target, hlink⟩

end Discovery

end RoundTrip
