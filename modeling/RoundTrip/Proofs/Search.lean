import Mathlib.Data.List.Lex
import Mathlib.Data.List.Sort
import Mathlib.Data.String.Basic
import RoundTrip.Proofs.Descent
import RoundTrip.Proofs.Resolved
import RoundTrip.Proofs.Setup

/-! # The search for sources, exactly

    `IsSource` says which paths are sources, without the walk, the memory of links
    and the insertion: going down from a root through directories whose paths are
    short enough to be listed there is an entry that is taken for no directory, its
    name is accepted, and the path is what it resolves to.

    **`finds_exactly`**: the search delivers these paths in rising order, so the
    result depends on nothing but this set, and it fails for want of a root exactly
    if no root can be searched.  All of this needs that no root is longer than the
    system takes: the first such root ends the search with the refusal of the system,
    where other roots that cannot be searched are skipped. -/

namespace RoundTrip

/-! ## The order of paths -/

namespace Path

variable {p q r : Path}

/-- The order of the sources is that of their keys. -/
theorem before_iff : p.before q = true ↔ p.orderKey < q.orderKey := decide_eq_true_iff

theorem before_irrefl (p : Path) : ¬p.before p := by
  rw [before_iff]
  exact lt_irrefl _

theorem before_trans (hpq : p.before q) (hqr : q.before r) : p.before r :=
  before_iff.mpr (lt_trans (before_iff.mp hpq) (before_iff.mp hqr))

theorem before_asymm (hpq : p.before q) : ¬q.before p := fun hqp =>
  before_irrefl p (before_trans hpq hqp)

/-- The parts that order absolute paths tell them apart. -/
theorem orderKey_injective (hp : p.isAbsolute = true) (hq : q.isAbsolute = true)
    (h : p.orderKey = q.orderKey) : p = q := by
  have htext : ∀ a b : Anchor, a.text = b.text → a = b := by
    intro a b hab
    cases a <;> cases b <;> first | rfl | exact absurd hab (by decide)
  obtain ⟨a, names⟩ := p
  obtain ⟨b, names'⟩ := q
  unfold orderKey at h
  rw [if_pos hp, if_pos hq] at h
  obtain ⟨hanchor, hnames⟩ := List.cons.inj h
  obtain rfl := htext a b hanchor
  exact congrArg (Path.mk a) hnames

/-- Of two absolute paths one comes before the other. -/
theorem before_or_before (hp : p.isAbsolute = true) (hq : q.isAbsolute = true) (hne : p ≠ q) :
    p.before q = true ∨ q.before p = true := by
  rw [before_iff, before_iff]
  exact lt_or_gt_of_ne fun h => hne (orderKey_injective hp hq h)

end Path

namespace Discovery

/-- Paths rise. -/
def Rising (ps : List Path) : Prop := ps.Pairwise fun p q => p.before q = true

variable {ps qs : List Path} {p : Path}

/-- A path that is inserted keeps the list rising. -/
theorem Rising.insert (h : Rising ps) (habs : ∀ q ∈ ps, q.isAbsolute = true)
    (hp : p.isAbsolute = true) : Rising (insert p ps) := by
  induction ps with
  | nil => exact List.pairwise_singleton _ _
  | cons q rest ih =>
      obtain ⟨hq, habs⟩ := List.forall_mem_cons.mp habs
      obtain ⟨hfirst, hrest⟩ := List.pairwise_cons.mp h
      rw [Discovery.insert]
      split
      · exact h
      rename_i hne
      split
      · rename_i hbefore
        refine List.pairwise_cons.mpr ⟨?_, h⟩
        exact List.forall_mem_cons.mpr
          ⟨hbefore, fun r hr => Path.before_trans hbefore (hfirst r hr)⟩
      · rename_i hbefore
        refine List.pairwise_cons.mpr ⟨fun r hr => ?_, ih hrest habs⟩
        obtain rfl | hr := mem_insert.mp hr
        · exact (Path.before_or_before hp hq hne).resolve_left hbefore
        · exact hfirst r hr

/-- What is put in order rises. -/
theorem rising_inOrder (habs : ∀ q ∈ ps, q.isAbsolute = true) : Rising (inOrder ps) := by
  induction ps with
  | nil => exact List.Pairwise.nil
  | cons q rest ih =>
      obtain ⟨hq, habs⟩ := List.forall_mem_cons.mp habs
      exact (ih habs).insert (fun r hr => habs r (mem_inOrder.mp hr)) hq

/-- A rising list is known by what is in it. -/
theorem Rising.eq_of_mem_iff (hps : Rising ps) (hqs : Rising qs) (h : ∀ p, p ∈ ps ↔ p ∈ qs) :
    ps = qs := by
  have : Std.Antisymm fun p q : Path => p.before q = true :=
    ⟨fun _ _ hpq hqp => absurd hqp (Path.before_asymm hpq)⟩
  have : Std.Irrefl fun p q : Path => p.before q = true := ⟨fun p => Path.before_irrefl p⟩
  exact List.Pairwise.eq_of_mem_iff hps hqs h

/-! ## Roots -/

variable {c : Criteria} {root : Path} {roots roots' : List Path} {w w' : World} {place : Place}

/-- A root leads to a directory, and access to it is granted. -/
structure Searchable (w : World) (root : Path) (place : Place) : Prop where
  noNul : root.holdsNul = false
  found : w.disk.find w.cwd .target root = .ok place
  isDir : w.disk.get? place = some .dir
  granted : root.normalize w.cwd ∉ w.unreadable

/-- A root, or a name on its way, is longer than the system takes. -/
structure Overlong (w : World) (root : Path) : Prop where
  noNul : root.holdsNul = false
  refused : w.disk.find w.cwd .target root = .error .nameTooLong

/-- Whether a root can be searched is read off the node that it leads to. -/
theorem isReadable_of_status (hnul : root.holdsNul = false) :
    isReadable w root = match w.disk.status w.cwd .target root with
      | .ok node => .ok (node == .dir && !w.unreadable.contains (root.normalize w.cwd))
      | .error e => if e.saysAbsent then .ok false else .error (.refused e root) := by
  unfold isReadable Disk.isDir Disk.node?
  rw [hnul, if_neg Bool.false_ne_true]
  cases w.disk.status w.cwd .target root with
  | ok node => simp [Except.map]
  | error e => cases h : e.saysAbsent <;> simp [h, Except.map]

/-- **Whether a root can be searched.**  Only one that is too long has no answer. -/
theorem isReadable_cases (w : World) (root : Path) :
    (isReadable w root = .ok true ∧ ∃ place, Searchable w root place)
      ∨ (isReadable w root = .ok false ∧ (∀ place, ¬Searchable w root place) ∧ ¬Overlong w root)
      ∨ (isReadable w root = .error (.refused .nameTooLong root) ∧ Overlong w root) := by
  cases hnul : root.holdsNul with
  | true =>
      have hread : isReadable w root = .ok false := by
        unfold isReadable Disk.isDir Disk.node?
        rw [hnul]
        rfl
      refine Or.inr (Or.inl ⟨hread, fun _ h => ?_, fun h => ?_⟩)
      · cases hnul.symm.trans h.noNul
      · cases hnul.symm.trans h.noNul
  | false =>
      rw [isReadable_of_status hnul]
      cases hfind : w.disk.find w.cwd .target root with
      | error e =>
          rw [Disk.status_of_find_error hfind]
          -- a look-up that fails says that nothing is there, or that something in it is too
          -- long
          obtain rfl | habsent := Disk.saysAbsent_of_find hfind
          · exact Or.inr (Or.inr ⟨rfl, hnul, hfind⟩)
          · refine Or.inr (Or.inl ⟨if_pos habsent,
              (fun _ h => nomatch hfind.symm.trans h.found), fun h => ?_⟩)
            obtain rfl : e = .nameTooLong := Except.error.inj (hfind.symm.trans h.refused)
            cases habsent
      | ok place =>
          rw [Disk.status_of_find hfind]
          have hshort : ¬Overlong w root := fun h => nomatch hfind.symm.trans h.refused
          have hstands : ∀ place', Searchable w root place' → w.disk.get? place = some .dir := by
            intro place' h
            cases hfind.symm.trans h.found
            exact h.isDir
          cases hnode : w.disk.get? place with
          | none =>
              exact Or.inr (Or.inl ⟨rfl,
                (fun place' h => nomatch hnode.symm.trans (hstands place' h)), hshort⟩)
          | some node =>
              by_cases h : node = .dir ∧ root.normalize w.cwd ∉ w.unreadable
              · obtain ⟨rfl, hgranted⟩ := h
                exact Or.inl ⟨by simp [hgranted], place, hnul, hfind, hnode, hgranted⟩
              · refine Or.inr (Or.inl ⟨by simpa using h, fun place' hs => h ?_, hshort⟩)
                exact ⟨Option.some.inj (hnode.symm.trans (hstands place' hs)), hs.granted⟩

/-- A root can be searched if it leads to a directory that may be listed. -/
theorem isReadable_eq_true_iff :
    isReadable w root = .ok true ↔ ∃ place, Searchable w root place := by
  obtain ⟨h, hs⟩ | ⟨h, hs, -⟩ | ⟨h, ho⟩ := isReadable_cases w root
  · exact ⟨fun _ => hs, fun _ => h⟩
  · rw [h]
    exact ⟨fun ht => (nomatch ht), fun ⟨place, hp⟩ => absurd hp (hs place)⟩
  · rw [h]
    exact ⟨fun ht => (nomatch ht), fun ⟨_, hp⟩ => (nomatch ho.refused.symm.trans hp.found)⟩

/-- The search for roots comes to its end if no root is too long. -/
theorem readableRoots_total (h : ∀ root ∈ roots, ¬Overlong w root) :
    ∃ rs w', readableRoots roots w = .ok rs w' := by
  induction roots generalizing w with
  | nil => exact ⟨[], w, rfl⟩
  | cons root rest ih =>
      obtain ⟨hroot, hrest⟩ := List.forall_mem_cons.mp h
      obtain ⟨hr, -⟩ | ⟨hr, -⟩ | ⟨-, ho⟩ := isReadable_cases w root
      · obtain ⟨rs, w', hrs⟩ := ih hrest
        exact ⟨root :: rs, w', by rw [readableRoots_readable hr, Step.bind_ok hrs]; rfl⟩
      · rw [readableRoots_skipped hr, Step.bind_ok (warnUnreadable_apply root w)]
        exact ih fun r hr ho => hrest r hr ⟨ho.noNul, ho.refused⟩
      · exact absurd ho hroot

/-- The first root that is too long ends it. -/
theorem readableRoots_overlong {early late : List Path} (h : ∀ r ∈ early, ¬Overlong w r)
    (hroot : Overlong w root) :
    ∃ w', readableRoots (early ++ root :: late) w
      = .error (.path (.refused .nameTooLong root)) w' := by
  induction early generalizing w with
  | nil =>
      obtain ⟨-, place, hs⟩ | ⟨-, -, hno⟩ | ⟨hr, -⟩ := isReadable_cases w root
      · cases hroot.refused.symm.trans hs.found
      · exact absurd hroot hno
      · exact ⟨w, readableRoots_refused hr⟩
  | cons first early ih =>
      obtain ⟨hfirst, hearly⟩ := List.forall_mem_cons.mp h
      rw [List.cons_append]
      obtain ⟨hr, -⟩ | ⟨hr, -⟩ | ⟨-, ho⟩ := isReadable_cases w first
      · obtain ⟨w', hrest⟩ := ih hearly hroot
        exact ⟨w', by rw [readableRoots_readable hr, Step.bind_error hrest]⟩
      · rw [readableRoots_skipped hr, Step.bind_ok (warnUnreadable_apply first w)]
        exact ih (fun r hr ho => hearly r hr ⟨ho.noNul, ho.refused⟩) ⟨hroot.noNul, hroot.refused⟩
      · exact absurd ho hfirst

/-! ## Sources -/

/-- A name is accepted if it ends in the suffix and is not among the excluded ones. -/
theorem accepts_iff {n : String} :
    c.accepts n = true ↔ (∃ stem, n = stem ++ c.suffix) ∧ n ∉ c.excluded := by
  unfold Criteria.accepts
  rw [Bool.and_eq_true, List.isSuffixOf_iff_suffix, Bool.not_eq_true', ← Bool.not_eq_true,
    List.contains_iff_mem]
  refine and_congr_left fun _ => ⟨fun ⟨stem, h⟩ => ?_, fun ⟨stem, h⟩ => ?_⟩
  · refine ⟨String.ofList stem, String.toList_inj.mp ?_⟩
    rw [String.toList_append, String.toList_ofList, h]
  · exact ⟨stem.toList, by rw [h, String.toList_append]⟩

/-- Below a root that can be searched there is an entry with an accepted name that is taken for
    no directory. -/
structure Holds (w : World) (c : Criteria) (root : Path) (above : List String) (n : String)
    (place : Place) : Prop where
  searchable : Searchable w root place
  lies : w.disk.LiesBelow w.cwd (Disk.walkStart root) place (above ++ [n])
  ends : ∃ stem, n = stem ++ c.suffix
  notExcluded : n ∉ c.excluded

/-- A path is what an entry below one of the roots resolves to. -/
def IsSource (w : World) (c : Criteria) (roots : List Path) (p : Path) : Prop :=
  ∃ root ∈ roots, ∃ above n place, Holds w c root above n place
    ∧ w.disk.ResolvesTo w.cwd (root.descend (above ++ [n])) p

/-- What the search for sources starts from. -/
structure Searching (w : World) (c : Criteria) (roots : List Path) : Prop where
  /-- Only directories have anything below them, and names are names of entries. -/
  closed : w.disk.Closed
  wellNamed : w.disk.WellNamed
  cwd_isAbsolute : w.cwd.isAbsolute = true
  cwd_noNul : w.cwd.holdsNul = false
  canonical : ∀ root ∈ roots, root.Canonical
  /-- No entry with an accepted name runs into a loop of links. -/
  loopFree : ∀ root ∈ roots, ∀ above n place, Holds w c root above n place →
    w.disk.LoopFree w.cwd (root.descend (above ++ [n]))

/-- What lies below a root on a well-named disk lies there under file names. -/
theorem isFileName_of_lies {d : Disk} {cwd start : Path} (hd : d.WellNamed) {names : List String}
    (h : d.LiesBelow cwd start place names) : ∀ n ∈ names, Path.IsFileName n := by
  intro n hn
  have hne : place ++ names ≠ [] := fun hnil => h.ne_nil (List.append_eq_nil_iff.mp hnil).2
  exact hd _ (Disk.mem_places hne h.stands) n (List.mem_append_right _ hn)

/-- A path by which an entry is found is one that can be read back. -/
theorem canonical_descend {names : List String} (hroot : root.Canonical)
    (hnames : ∀ n ∈ names, Path.IsFileName n) : (root.descend names).Canonical := by
  intro n hn
  obtain hn | hn := List.mem_append.mp hn
  · exact hroot n hn
  · exact ⟨(hnames n hn).isName, (hnames n hn).noSlash⟩

/-- What the walk finds below a root that can be searched is what the root holds. -/
theorem found_iff (hs : Searching w c roots) (hroot : root ∈ roots) :
    (isReadable w root = .ok true ∧ ∃ names, Found w c root names p)
      ↔ ∃ above n place, Holds w c root above n place
        ∧ w.disk.ResolvesTo w.cwd (root.descend (above ++ [n])) p := by
  constructor
  · rintro ⟨hread, names, hf⟩
    obtain ⟨place, hsearch⟩ := isReadable_eq_true_iff.mp hread
    obtain ⟨place', hfound, hwalk⟩ := hf.walked
    cases hsearch.found.symm.trans hfound
    obtain ⟨above, n, rfl, -⟩ := exists_last_of_walk hs.wellNamed hwalk
    have hlies := (Disk.mem_walk_iff hs.closed hs.wellNamed).mp hwalk
    obtain ⟨hends, hexcluded⟩ := accepts_iff.mp (by simpa using hf.accepted)
    have hholds : Holds w c root above n place := ⟨hsearch, hlies, hends, hexcluded⟩
    obtain ⟨q, hq, hresolves⟩ := (hs.loopFree root hroot above n place hholds).resolve_eq
      (canonical_descend (hs.canonical root hroot) (isFileName_of_lies hs.wellNamed hlies))
      hs.cwd_noNul
    cases hq.symm.trans hf.resolved
    exact ⟨above, n, place, hholds, hresolves⟩
  · rintro ⟨above, n, place, hholds, hresolves⟩
    refine ⟨isReadable_eq_true_iff.mpr ⟨place, hholds.searchable⟩, above ++ [n], ?_, ?_, ?_⟩
    · exact ⟨place, hholds.searchable.found,
        (Disk.mem_walk_iff hs.closed hs.wellNamed).mpr hholds.lies⟩
    -- the name that is filtered is the one of the entry, not the one it resolves to
    · simpa using accepts_iff.mpr ⟨hholds.ends, hholds.notExcluded⟩
    · obtain ⟨q, hq, hresolves'⟩ := (hs.loopFree root hroot above n place hholds).resolve_eq
        (canonical_descend (hs.canonical root hroot)
          (isFileName_of_lies hs.wellNamed hholds.lies)) hs.cwd_noNul
      rwa [hresolves.unique hresolves']

/-- Where every element has a result, the pass over a list ends without an error. -/
theorem exists_mapM_eq_ok {ε α β : Type} {f : α → Except ε β} {xs : List α}
    (h : ∀ x ∈ xs, ∃ y, f x = .ok y) : ∃ ys, xs.mapM f = .ok ys := by
  induction xs with
  | nil => exact ⟨[], rfl⟩
  | cons x xs ih =>
      obtain ⟨⟨y, hy⟩, hxs⟩ := List.forall_mem_cons.mp h
      obtain ⟨ys, hys⟩ := ih hxs
      refine ⟨y :: ys, ?_⟩
      rw [List.mapM_cons, hy]
      simp only [hys, bind, Except.bind]
      rfl

/-- Everything that a root holds is resolved. -/
theorem sourcesBelow_total (hs : Searching w c roots) (hroot : root ∈ roots)
    (hsearch : Searchable w root place) : ∃ ps, sourcesBelow w c root = .ok ps := by
  unfold sourcesBelow
  rw [Disk.checkNul_of_not_holdsNul hsearch.noNul]
  simp only [bind, Except.bind, hsearch.found]
  refine exists_mapM_eq_ok fun names hnames => ?_
  obtain ⟨hwalk, haccepts⟩ := List.mem_filter.mp hnames
  obtain ⟨above, n, rfl, -⟩ := exists_last_of_walk hs.wellNamed hwalk
  have hlies := (Disk.mem_walk_iff hs.closed hs.wellNamed).mp hwalk
  obtain ⟨hends, hexcluded⟩ := accepts_iff.mp (by simpa using haccepts)
  obtain ⟨q, hq, -⟩ := (hs.loopFree root hroot above n place
      ⟨hsearch, hlies, hends, hexcluded⟩).resolve_eq
    (canonical_descend (hs.canonical root hroot) (isFileName_of_lies hs.wellNamed hlies))
    hs.cwd_noNul
  exact ⟨q, hq⟩

theorem resolvesTo_isAbsolute {d : Disk} {cwd q : Path} (hcwd : cwd.isAbsolute = true)
    (h : d.ResolvesTo cwd p q) : q.isAbsolute = true := by
  obtain ⟨r, -, rfl⟩ := h
  exact Path.isAbsolute_div hcwd r

/-- With a root that can be searched the search goes through all of them. -/
theorem findSources_of_readableRoots {rs : List Path} {w₁ : World}
    (h : readableRoots roots w = .ok rs w₁) (hne : rs ≠ []) :
    findSources roots c w = (do
      let found ← Step.ofExcept Fault.path (rs.mapM (sourcesBelow w₁ c))
      let sources := inOrder found.flatten
      World.log .discovery
        ("discovered " ++ toString sources.length ++ " sources under " ++ toString rs.length
          ++ " roots")
      pure sources : Action World _) w₁ := by
  unfold findSources
  rw [Step.bind_ok h, if_neg (by simpa using hne), Step.bind_ok (Step.get_apply w₁)]

/-- The search delivers the sources in rising order. -/
structure Delivers (w : World) (c : Criteria) (roots sources : List Path) : Prop where
  outcome_eq : Step.outcome (findSources roots c w) = .ok sources
  rising : Rising sources
  mem_iff : ∀ p, p ∈ sources ↔ IsSource w c roots p

/-- With a root that can be searched, and none that is too long, the search delivers its
    sources in order. -/
theorem exists_delivers (hs : Searching w c roots) (hshort : ∀ root ∈ roots, ¬Overlong w root)
    (hsome : ∃ root ∈ roots, ∃ place, Searchable w root place) :
    ∃ sources, Delivers w c roots sources := by
  obtain ⟨rs, w₁, hroots⟩ := readableRoots_total hshort
  obtain ⟨⟨out, rfl⟩, hmem⟩ := readableRoots_eq_ok hroots
  have hne : rs ≠ [] := by
    obtain ⟨root, hroot, hsearch⟩ := hsome
    exact List.ne_nil_of_mem ((hmem root).mpr ⟨hroot, isReadable_eq_true_iff.mpr hsearch⟩)
  -- no root that can be searched ends the search, so each delivers what lies below it
  have hbelow : ∀ root ∈ rs, ∃ ps, sourcesBelow { w with stdout := out } c root = .ok ps := by
    intro root hroot
    obtain ⟨hin, hread⟩ := (hmem root).mp hroot
    obtain ⟨place, hsearch⟩ := isReadable_eq_true_iff.mp hread
    show ∃ ps, sourcesBelow w c root = .ok ps
    exact sourcesBelow_total hs hin hsearch
  obtain ⟨found, hfound⟩ := exists_mapM_eq_ok hbelow
  obtain ⟨stderr, hlog⟩ := World.log_apply .discovery
    ("discovered " ++ toString (inOrder found.flatten).length ++ " sources under "
      ++ toString rs.length ++ " roots") { w with stdout := out }
  have hfind : findSources roots c w
      = .ok (inOrder found.flatten) { w with stdout := out, stderr := stderr } := by
    rw [findSources_of_readableRoots hroots hne, hfound,
      Step.bind_ok (show Step.ofExcept Fault.path (.ok found) _ = .ok found _ from rfl),
      Step.bind_ok hlog]
    rfl
  have hsources : ∀ p, p ∈ inOrder found.flatten ↔ IsSource w c roots p := by
    intro p
    rw [mem_findSources hfind]
    constructor
    · rintro ⟨root, hroot, hread, hf⟩
      exact ⟨root, hroot, (found_iff hs hroot).mp ⟨hread, hf⟩⟩
    · rintro ⟨root, hroot, h⟩
      exact ⟨root, hroot, (found_iff hs hroot).mpr h⟩
  refine ⟨_, by rw [hfind]; rfl, rising_inOrder fun q hq => ?_, hsources⟩
  obtain ⟨root, -, above, n, place, -, hresolves⟩ := (hsources q).mp (mem_inOrder.mpr hq)
  exact resolvesTo_isAbsolute hs.cwd_isAbsolute hresolves

/-- With none that can be searched it fails for want of roots. -/
theorem findSources_of_none (hshort : ∀ root ∈ roots, ¬Overlong w root)
    (hnone : ∀ root ∈ roots, ∀ place, ¬Searchable w root place) :
    Step.outcome (findSources roots c w) = .error (.setup (.noReadableRoot roots)) := by
  obtain ⟨rs, w₁, hroots⟩ := readableRoots_total hshort
  have hnil : rs = [] := by
    rw [List.eq_nil_iff_forall_not_mem]
    intro root hroot
    obtain ⟨hin, hread⟩ := ((readableRoots_eq_ok hroots).2 root).mp hroot
    obtain ⟨place, hsearch⟩ := isReadable_eq_true_iff.mp hread
    exact hnone root hin place hsearch
  subst hnil
  unfold findSources
  rw [Step.bind_ok hroots]
  rfl

/-! ## Roots that add nothing -/

/-- A root adds nothing: it is there already, it lies below another through directories, or
    what it holds is reached anyway. -/
inductive AddsNothing (w : World) (c : Criteria) (roots : List Path) : Path → Prop where
  | repeated {root : Path} (h : root ∈ roots) : AddsNothing w c roots root
  | nested {root : Path} {place : Place} {names : List String} (h : root ∈ roots)
      (hs : Searchable w root place) (hd : w.disk.DirsBelow place names)
      -- a walk of the current directory asks for everything by a longer path
      (hreach : root = ⟨.here, []⟩ →
        ∀ above n place', Holds w c (root.descend names) above n place' →
          Disk.canList ((Disk.walkStart root).descend (names ++ above)) = true) :
      AddsNothing w c roots (root.descend names)
  | reached {root : Path} (h : ∀ p, IsSource w c [root] p → IsSource w c roots p) :
      AddsNothing w c roots root

theorem isFileName_of_dirsBelow {d : Disk} (hd : d.WellNamed) {names : List String}
    (h : d.DirsBelow place names) : ∀ n ∈ names, Path.IsFileName n := by
  induction h with
  | here => simp
  | @descend place n names isDir _ ih =>
      have hmem : place ++ [n] ∈ d.places := Disk.mem_places (by simp) (by rw [isDir]; rfl)
      exact List.forall_mem_cons.mpr ⟨hd _ hmem n (by simp), ih⟩

/-- A nested root leads to the directory that it names from above. -/
theorem find_descend {d : Disk} {cwd : Path} {place' : Place} {names : List String}
    (hd : d.WellNamed)
    (hroot : d.find cwd .target root = .ok place) (hdirs : d.DirsBelow place names)
    (h : d.find cwd .target (root.descend names) = .ok place') : place' = place ++ names := by
  have hleads : ∀ {p : Path} {q : Place}, d.find cwd .target p = .ok q →
      Disk.Leads d .target Disk.linkLimit [] (p.absoluteNames cwd) q :=
    fun hp => (Disk.find_eq_ok_iff.mp hp).2
  cases names with
  | nil =>
      rw [Path.descend_nil] at h
      rw [Except.ok.inj (h.symm.trans hroot), List.append_nil]
  | cons n names =>
      have hlong := hleads h
      rw [Path.absoluteNames_descend] at hlong
      obtain ⟨middle, fewer, hfirst, hsecond⟩ := hlong.append_inv (List.cons_ne_nil _ _)
      obtain rfl := hfirst.unique (hleads hroot)
      exact hsecond.eq_append (isFileName_of_dirsBelow hd hdirs) hdirs

/-- A root that adds nothing brings no source that is not there. -/
theorem AddsNothing.isSource (h : AddsNothing w c roots root) (hclosed : w.disk.Closed)
    (hd : w.disk.WellNamed)
    (hp : IsSource w c [root] p) : IsSource w c roots p := by
  cases h with
  | reached h => exact h p hp
  | repeated h =>
      obtain ⟨_, hroot, hholds⟩ := hp
      obtain rfl := List.mem_singleton.mp hroot
      exact ⟨_, h, hholds⟩
  -- the source below the nested root is found from the outer root by the way to the nested one
  -- and the way from there
  | @nested root place names h hs hdirs hreach =>
      obtain ⟨_, hroot, above, n, place', hholds, hresolves⟩ := hp
      obtain rfl := List.mem_singleton.mp hroot
      have hplace := find_descend hd hs.found hdirs hholds.searchable.found
      have habove : ∀ m ∈ above, m ≠ "" := fun m hm =>
        (isFileName_of_lies hd hholds.lies m (List.mem_append_left _ hm)).ne_empty
      have hlies := hholds.lies.of_walkStart hclosed habove
        fun hhere => hreach hhere above n place' hholds
      rw [hplace] at hlies
      refine ⟨root, h, names ++ above, n, place, ⟨hs, ?_, hholds.ends, hholds.notExcluded⟩, ?_⟩
      · rw [List.append_assoc]
        exact hlies.append hdirs fun m hm => (isFileName_of_dirsBelow hd hdirs m hm).ne_empty
      · rwa [List.append_assoc, ← Path.descend_descend]

/-- More roots, more sources. -/
theorem IsSource.mono (h : IsSource w c roots p) (hsub : roots ⊆ roots') :
    IsSource w c roots' p := by
  obtain ⟨root, hroot, hholds⟩ := h
  exact ⟨root, hsub hroot, hholds⟩

/-! ## The search as a whole -/

/-- What the search for sources does. -/
structure FindsExactly (w : World) (c : Criteria) (roots : List Path) : Prop where
  /-- The first root that is too long ends the search with the refusal of the system. -/
  overlong : ∀ early root late, roots = early ++ root :: late → (∀ r ∈ early, ¬Overlong w r) →
    Overlong w root →
    Step.outcome (findSources roots c w) = .error (.path (.refused .nameTooLong root))
  /-- Where no root is too long, it ends for want of a root exactly if none can be searched. -/
  noRoot : (∀ root ∈ roots, ¬Overlong w root) →
    (Step.outcome (findSources roots c w) = .error (.setup (.noReadableRoot roots))
      ↔ ∀ root ∈ roots, ∀ place, ¬Searchable w root place)
  /-- Else it delivers the sources. -/
  delivers : (∀ root ∈ roots, ¬Overlong w root) →
    (∃ root ∈ roots, ∃ place, Searchable w root place) → ∃ sources, Delivers w c roots sources
  /-- Other roots that add nothing, in whatever order, leave the result as it is. -/
  unchanged : ∀ roots' sources, Delivers w c roots sources → Searching w c roots' →
    (∀ root ∈ roots', ¬Overlong w root) → roots ⊆ roots' →
    (∀ root ∈ roots', AddsNothing w c roots root) → Delivers w c roots' sources
  /-- Other roots never remove a source. -/
  kept : ∀ roots' sources, Delivers w c roots sources → Searching w c roots' →
    (∀ root ∈ roots', ¬Overlong w root) → roots ⊆ roots' →
    ∃ sources', Delivers w c roots' sources' ∧ sources ⊆ sources'

theorem Delivers.exists_searchable {sources : List Path} (h : Delivers w c roots sources) :
    ∃ root ∈ roots, ∃ place, Searchable w root place := by
  have hout := h.outcome_eq
  cases hfind : findSources roots c w with
  | error e w' =>
      rw [hfind] at hout
      cases hout
  | ok sources w' =>
      obtain ⟨root, hroot, hread⟩ := exists_isReadable hfind
      exact ⟨root, hroot, isReadable_eq_true_iff.mp hread⟩

/-- **What the search finds, and when it fails.** -/
theorem finds_exactly (hs : Searching w c roots) : FindsExactly w c roots where
  overlong := by
    rintro early root late rfl hearly hroot
    obtain ⟨w', h⟩ : ∃ w', readableRoots (early ++ root :: late) w
        = .error (.path (.refused .nameTooLong root)) w' := readableRoots_overlong hearly hroot
    unfold findSources
    rw [Step.bind_error h]
    rfl
  noRoot := by
    intro hshort
    refine ⟨fun h root hroot place hsearch => ?_, findSources_of_none hshort⟩
    obtain ⟨sources, hdelivers⟩ := exists_delivers hs hshort ⟨root, hroot, place, hsearch⟩
    cases h.symm.trans hdelivers.outcome_eq
  delivers := exists_delivers hs
  unchanged := by
    intro roots' sources h hs' hshort hsub hnothing
    obtain ⟨root, hroot, hsearch⟩ := h.exists_searchable
    obtain ⟨sources', h'⟩ := exists_delivers hs' hshort ⟨root, hsub hroot, hsearch⟩
    -- both lists are in order and have the same members, so they are the same
    have hsame : ∀ p, p ∈ sources' ↔ p ∈ sources := by
      intro p
      rw [h'.mem_iff, h.mem_iff]
      refine ⟨?_, fun hp => hp.mono hsub⟩
      rintro ⟨r, hr, hholds⟩
      exact (hnothing r hr).isSource hs.closed hs.wellNamed ⟨r, List.mem_singleton.mpr rfl, hholds⟩
    rwa [h'.rising.eq_of_mem_iff h.rising hsame] at h'
  kept := by
    intro roots' sources h hs' hshort hsub
    obtain ⟨root, hroot, hsearch⟩ := h.exists_searchable
    obtain ⟨sources', h'⟩ := exists_delivers hs' hshort ⟨root, hsub hroot, hsearch⟩
    exact ⟨sources', h', fun p hp => (h'.mem_iff p).mpr (((h.mem_iff p).mp hp).mono hsub)⟩

/-- A disk on which a link under an accepted name leads to a file elsewhere. -/
def crossedDisk : Disk :=
  ⟨[(["t"], .dir), (["t", "a.sol"], .file []), (["t", "b.sol"], .link "../u/c.sol"),
    (["u"], .dir), (["u", "c.sol"], .file [])]⟩

def crossed : World := .fresh crossedDisk ⟨.root, []⟩ []

/-- A root with a name of so many octets. -/
def longRoot (octets : Nat) : Path := ⟨.root, [String.ofList (List.replicate octets 'n')]⟩

/-- A name of `k` letters has `k` octets. -/
theorem utf8ByteSize_replicate (k : Nat) :
    (String.ofList (List.replicate k 'n')).utf8ByteSize = k := by
  rw [String.utf8ByteSize_ofList]
  induction k with
  | zero => rfl
  | succ k ih =>
      rw [List.replicate_succ, String.utf8Len_cons, ih]
      rfl

theorem isFileName_replicate (k : Nat) :
    Path.IsFileName (String.ofList (List.replicate (k + 1) 'n')) := by
  have hne : ∀ s : String, s.toList.head? ≠ some 'n' →
      String.ofList (List.replicate (k + 1) 'n') ≠ s := by
    rintro s hs rfl
    rw [String.toList_ofList] at hs
    exact hs rfl
  refine ⟨?_, hne _ (by decide), ?_⟩
  · unfold Path.isName
    rw [Bool.and_eq_true, bne_iff_ne, bne_iff_ne]
    exact ⟨hne _ (by decide), hne _ (by decide)⟩
  · rw [String.toList_ofList, List.mem_replicate]
    exact fun h => absurd h.2 (by decide)

/-- A root with a name beyond the limit is too long in every world. -/
theorem overlong_longRoot (w : World) {k : Nat} (hk : Disk.nameLimit < k) :
    Overlong w (longRoot k) := by
  obtain ⟨k, rfl⟩ : ∃ m, k = m + 1 := ⟨k - 1, by unfold Disk.nameLimit at hk; omega⟩
  have hn := isFileName_replicate k
  constructor
  · simp [longRoot, Path.holdsNul]
  · unfold Disk.find
    split
    · rfl
    · show Disk.locateWith _ w.disk .target [] [_] = _
      rw [Disk.locateWith, show w.disk.get? [] = some .dir from rfl]
      simp only [hn.isName, hn.notUp, utf8ByteSize_replicate, hk, if_true]
      rfl

/-- The small disk meets what the search asks for. -/
theorem searching_crossed {roots : List Path} (h : ∀ root ∈ roots, root = ⟨.root, ["t"]⟩
      ∨ root = longRoot 256) : Searching crossed ⟨".sol", []⟩ roots := by
  have hkeep : ∀ p : Path, crossedDisk.linkAt? crossed.cwd p = none →
      ∀ place target, ¬crossedDisk.LinkAt crossed.cwd p place target :=
    fun p hp place target hl => nomatch hp.symm.trans (Disk.linkAt?_eq_some_iff.mpr ⟨place, hl⟩)
  have hlink : crossedDisk.LinkAt crossed.cwd ⟨.root, ["t", "b.sol"]⟩ ["t", "b.sol"] "../u/c.sol" :=
    ⟨by decide +kernel, by decide⟩
  have hclosed : crossed.disk.Closed := Disk.Closed.of_places (by decide)
  refine ⟨hclosed, by decide, rfl, rfl, fun root hroot => ?_, fun root hroot above n place hh => ?_⟩
  · obtain rfl | rfl := h root hroot
    · decide
    · intro n hn
      obtain rfl := List.mem_singleton.mp hn
      exact ⟨(isFileName_replicate 255).isName, (isFileName_replicate 255).noSlash⟩
  · obtain rfl | rfl := h root hroot
    · have hfound : crossedDisk.find crossed.cwd .target ⟨.root, ["t"]⟩ = .ok ["t"] := by
        decide +kernel
      obtain rfl : place = ["t"] := Except.ok.inj (hh.searchable.found.symm.trans hfound)
      have hwalk := (Disk.mem_walk_iff hclosed (by decide)).mpr hh.lies
      rw [show crossed.disk.walk crossed.cwd (Disk.walkStart ⟨.root, ["t"]⟩) ["t"]
        = [["a.sol"], ["b.sol"]] by decide +kernel] at hwalk
      obtain hab | hab := List.mem_pair.mp hwalk
      · rw [hab]
        refine ⟨⟨.root, ["t", "a.sol"]⟩, ⟨⟨.root, ["t", "a.sol"]⟩, ?_, by decide⟩,
          by decide +kernel⟩
        refine .keep (by decide) (by decide) (by decide) (hkeep _ (by decide +kernel)) ?_
        refine .keep (by decide) (by decide) (by decide) (hkeep _ (by decide +kernel)) ?_
        exact .done _ _
      · rw [hab]
        refine ⟨⟨.root, ["u", "c.sol"]⟩, ⟨⟨.root, ["u", "c.sol"]⟩, ?_, by decide⟩,
          by decide +kernel⟩
        refine .keep (by decide) (by decide) (by decide) (hkeep _ (by decide +kernel)) ?_
        refine .follow (by decide) (by decide) (by decide) hlink (by simp) ?_ (.done _ _)
        refine .up ?_
        refine .keep (by decide) (by decide) (by decide) (hkeep _ (by decide +kernel)) ?_
        refine .keep (by decide) (by decide) (by decide) (hkeep _ (by decide +kernel)) ?_
        exact .done _ _
    · cases (overlong_longRoot crossed (by decide)).refused.symm.trans hh.searchable.found

/-- A root that cannot be searched for its length ends the search, also where another root has
    sources. -/
theorem overlong_root_hides_sources :
    Delivers crossed ⟨".sol", []⟩ [⟨.root, ["t"]⟩]
        [⟨.root, ["t", "a.sol"]⟩, ⟨.root, ["u", "c.sol"]⟩]
      ∧ Step.outcome (findSources [⟨.root, ["t"]⟩, longRoot 256] ⟨".sol", []⟩ crossed)
        = .error (.path (.refused .nameTooLong (longRoot 256))) := by
  have hlong : Overlong crossed (longRoot 256) := overlong_longRoot crossed (by decide)
  have hsearch : Searchable crossed ⟨.root, ["t"]⟩ ["t"] :=
    ⟨by decide, by decide +kernel, by decide, by decide⟩
  have hshort : ¬Overlong crossed ⟨.root, ["t"]⟩ := fun h =>
    nomatch h.refused.symm.trans hsearch.found
  constructor
  · obtain ⟨sources, h⟩ := (finds_exactly (searching_crossed (by simp))).delivers
      (by simpa using hshort) ⟨_, List.mem_singleton.mpr rfl, _, hsearch⟩
    have hsources : (match findSources [⟨.root, ["t"]⟩] ⟨".sol", []⟩ crossed with
        | .ok sources _ => decide (sources = [⟨.root, ["t", "a.sol"]⟩, ⟨.root, ["u", "c.sol"]⟩])
        | .error _ _ => false) = true := by decide +kernel
    have hout := h.outcome_eq
    split at hsources
    · rename_i found w' hfind
      rw [hfind] at hout
      cases hout
      obtain rfl := of_decide_eq_true hsources
      exact h
    · cases hsources
  · exact (finds_exactly (searching_crossed (by simp))).overlong [⟨.root, ["t"]⟩] _ [] rfl
      (by simpa using hshort) hlong

end Discovery

end RoundTrip
