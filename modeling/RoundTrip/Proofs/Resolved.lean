import RoundTrip.Proofs.Edit
import RoundTrip.Proofs.Path

/-! # What a path resolves to

    `Resolves` says what resolution is, without a memory of links and without a
    bound: names are taken from left to right, `..` is the step back, and a link
    gives way to what its target resolves to.  A derivation exists as long as no
    link is met again while it is under way.

    The search that resolution carries out remembers what it has found and gives
    up at a depth.  **`LoopFree.resolve_eq`**: wherever there is a derivation, the search
    finds its path.  The memory never holds anything else, and the links
    under way are different ones, so the depth is never reached. -/

namespace RoundTrip.Disk

/-- A path leads to a link itself, with this target. -/
structure LinkAt (d : Disk) (cwd p : Path) (place : Place) (target : String) : Prop where
  found : d.find cwd .entry p = .ok place
  stands : d.get? place = some (.link target)

variable {d : Disk} {cwd p here q q' : Path} {place : Place} {target n : String}
  {under under' : List Place} {parts rest : List String} {seen : Seen}

theorem linkAt?_eq_some_iff :
    d.linkAt? cwd p = some target ↔ ∃ place, d.LinkAt cwd p place target := by
  unfold linkAt?
  constructor
  · intro h
    split at h
    · rename_i t ht
      cases h
      obtain ⟨place, hfound, hstands⟩ := status_eq_ok_iff.mp ht
      exact ⟨place, hfound, hstands⟩
    · cases h
  · rintro ⟨place, hfound, hstands⟩
    rw [status_eq_ok_iff.mpr ⟨place, hfound, hstands⟩]

/-- Where no link stands at the end of a path, none is found. -/
theorem linkAt?_eq_none (h : ∀ place target, ¬ d.LinkAt cwd p place target) :
    d.linkAt? cwd p = none := by
  refine Option.eq_none_iff_forall_ne_some.mpr fun target ht => ?_
  obtain ⟨place, hlink⟩ := linkAt?_eq_some_iff.mp ht
  exact h place target hlink

/-- The path with one more name. -/
abbrev child (here : Path) (n : String) : Path := ⟨here.anchor, here.names ++ [n]⟩

/-- From a path that goes through no link, names resolve to another.  The links at the places
    `under` are under way, and none of them is met. -/
inductive Resolves (d : Disk) (cwd : Path) : List Place → Path → List String → Path → Prop where
  | done (under : List Place) (here : Path) : Resolves d cwd under here [] here
  /-- An empty name or `.` stays where it is. -/
  | skip {under : List Place} {here q : Path} {n : String} {rest : List String}
      (hn : Path.isName n = false) (tail : Resolves d cwd under here rest q) :
      Resolves d cwd under here (n :: rest) q
  | up {under : List Place} {here q : Path} {rest : List String}
      (tail : Resolves d cwd under here.stepBack rest q) :
      Resolves d cwd under here (".." :: rest) q
  /-- What is no link is kept, whether it is there or not. -/
  | keep {under : List Place} {here q : Path} {n : String} {rest : List String}
      (hn : Path.isName n = true) (hup : n ≠ "..") (hnul : (child here n).holdsNul = false)
      (hlink : ∀ place target, ¬ d.LinkAt cwd (child here n) place target)
      (tail : Resolves d cwd under (child here n) rest q) :
      Resolves d cwd under here (n :: rest) q
  | follow {under : List Place} {here middle q : Path} {n target : String} {rest : List String}
      {place : Place} (hn : Path.isName n = true) (hup : n ≠ "..")
      (hnul : (child here n).holdsNul = false) (hlink : d.LinkAt cwd (child here n) place target)
      (hfresh : place ∉ under)
      (inner : Resolves d cwd (place :: under) (startOf here target) (Path.splitSlashes target)
        middle)
      (tail : Resolves d cwd under middle rest q) : Resolves d cwd under here (n :: rest) q

theorem LinkAt.unique {place' : Place} {target' : String} (h : d.LinkAt cwd p place target)
    (h' : d.LinkAt cwd p place' target') : place = place' ∧ target = target' := by
  obtain rfl : place = place' := Except.ok.inj (h.found.symm.trans h'.found)
  have heq : some (Node.link target) = some (Node.link target') := h.stands.symm.trans h'.stands
  cases heq
  exact ⟨rfl, rfl⟩

/-- Names resolve to one path only, whatever is under way. -/
theorem Resolves.unique (h : Resolves d cwd under here parts q)
    (h' : Resolves d cwd under' here parts q') : q = q' := by
  induction h generalizing under' q' with
  | done => cases h'; rfl
  | skip hn _ ih =>
      cases h' with
      | skip _ tail => exact ih tail
      | up => exact absurd hn (by decide)
      | keep hn' | follow hn' => rw [hn] at hn'; cases hn'
  | up _ ih =>
      cases h' with
      | skip hn => exact absurd hn (by decide)
      | up tail => exact ih tail
      | keep _ hup | follow _ hup => exact absurd rfl hup
  -- a name that is no link is kept, and a link is followed; there is never a choice
  | keep hn hup _ hlink _ ih =>
      cases h' with
      | skip hn' => rw [hn] at hn'; cases hn'
      | up => exact absurd rfl hup
      | keep _ _ _ _ tail => exact ih tail
      | follow _ _ _ hlink' => exact absurd hlink' (hlink _ _)
  | follow hn hup _ hlink _ _ _ ihInner ihTail =>
      cases h' with
      | skip hn' => rw [hn] at hn'; cases hn'
      | up => exact absurd rfl hup
      | keep _ _ _ hlink' => exact absurd hlink (hlink' _ _)
      | follow _ _ _ hlink' _ inner tail =>
          obtain ⟨rfl, rfl⟩ := hlink.unique hlink'
          obtain rfl := ihInner inner
          exact ihTail tail

/-- Names that name nothing may be put anywhere. -/
theorem Resolves.of_filter
    (h : Resolves d cwd under here (parts.filter Path.isName) q) :
    Resolves d cwd under here parts q := by
  induction parts generalizing here with
  | nil => exact h
  | cons n rest ih =>
      cases hn : Path.isName n with
      | false =>
          rw [List.filter_cons_of_neg (by simp [hn])] at h
          exact .skip hn (ih h)
      | true =>
          rw [List.filter_cons_of_pos hn] at h
          cases h with
          | skip hn' => rw [hn] at hn'; cases hn'
          | up tail => exact .up (ih tail)
          | keep hn hup hnul hlink tail => exact .keep hn hup hnul hlink (ih tail)
          | follow hn hup hnul hlink hfresh inner tail =>
              exact .follow hn hup hnul hlink hfresh inner (ih tail)

/-- No name of the path reached holds a NUL. -/
theorem Resolves.noNul (h : Resolves d cwd under here parts q) (hhere : here.holdsNul = false) :
    q.holdsNul = false := by
  have hback : ∀ here : Path, here.holdsNul = false → here.stepBack.holdsNul = false := by
    intro here hh
    unfold Path.holdsNul at hh ⊢
    rw [List.any_eq_false] at hh ⊢
    intro n hmem
    unfold Path.stepBack at hmem
    split at hmem
    · obtain hmem | hmem := List.mem_append.mp hmem
      · exact hh n hmem
      · obtain rfl := List.mem_singleton.mp hmem
        decide
    · exact hh n (List.dropLast_subset _ hmem)
  induction h with
  | done => exact hhere
  | skip _ _ ih => exact ih hhere
  | up _ ih => exact ih (hback _ hhere)
  | keep _ _ hnul _ _ ih => exact ih hnul
  -- what a link leads to is free of it by the inner way
  | follow _ _ _ _ _ _ _ ihInner ihTail =>
      refine ihTail (ihInner ?_)
      unfold startOf
      split
      · exact hhere
      · rfl

/-! ## The links under way are different ones -/

/-- The places of the links. -/
def linkPlaces (d : Disk) : List Place :=
  (d.entries.filter fun e => match e.2 with
    | .link _ => true
    | _ => false).map (·.1)

/-- There are as many places of links as links. -/
theorem length_linkPlaces (d : Disk) : d.linkPlaces.length = d.linkCount := by
  unfold linkPlaces linkCount
  rw [List.length_map]
  exact List.countP_eq_length_filter.symm

theorem mem_linkPlaces (h : d.get? place = some (.link target)) : place ∈ d.linkPlaces := by
  have hne : place ≠ [] := by
    rintro rfl
    cases h
  unfold get? at h
  rw [if_neg hne] at h
  exact List.mem_map.mpr ⟨_, List.mem_filter.mpr ⟨mem_of_find? h, rfl⟩, rfl⟩

/-- Different links, all of which stand on the disk. -/
structure UnderWay (d : Disk) (under : List Place) : Prop where
  nodup : under.Nodup
  isLink : ∀ place ∈ under, place ∈ d.linkPlaces

/-- No more links can be under way than there are. -/
theorem UnderWay.length_le (h : UnderWay d under) : under.length ≤ d.linkCount := by
  rw [← length_linkPlaces]
  exact h.nodup.length_le_of_subset h.isLink

/-- A link that is new may be added to those under way. -/
theorem UnderWay.cons (h : UnderWay d under) (hlink : d.get? place = some (.link target))
    (hfresh : place ∉ under) : UnderWay d (place :: under) :=
  ⟨List.nodup_cons.mpr ⟨hfresh, h.nodup⟩,
    List.forall_mem_cons.mpr ⟨mem_linkPlaces hlink, h.isLink⟩⟩

/-! ## What the search remembers -/

/-- What is remembered: links that are under way, and where others lead. -/
structure Seen.Sound (d : Disk) (cwd : Path) (under : List Place) (seen : Seen) : Prop where
  pending : ∀ p, seen.find? p = some none →
    ∃ place target, d.LinkAt cwd p place target ∧ place ∈ under
  settled : ∀ p q, seen.find? p = some (some q) →
    ∃ place target under', d.LinkAt cwd p place target
      ∧ Resolves d cwd under' (startOf p.parent target) (Path.splitSlashes target) q

/-- A search that comes to its end at a path, and has nothing under way but what was. -/
structure Searched (d : Disk) (cwd : Path) (under : List Place) (seen : Seen) (q : Path)
    (r : Progress) : Prop where
  path_eq : r.path = q
  complete : r.ending = .complete
  sound : Seen.Sound d cwd under r.seen
  pending : ∀ p, r.seen.find? p = some none → seen.find? p = some none

theorem Seen.find?_cons (p p' : Path) (known : Option Path) (seen : Seen) :
    Seen.find? p' ((p, known) :: seen) = if p = p' then some known else seen.find? p' := rfl

theorem parent_child (here : Path) (n : String) : (child here n).parent = here := by
  unfold Path.parent
  rw [List.dropLast_concat]

/-- A link that is entered in the memory is under way. -/
theorem Seen.Sound.enter (h : Seen.Sound d cwd under seen) (hlink : d.LinkAt cwd p place target) :
    Seen.Sound d cwd (place :: under) ((p, none) :: seen) where
  pending := by
    intro p' hp'
    rw [Seen.find?_cons] at hp'
    split at hp'
    · rename_i heq
      exact heq ▸ ⟨place, target, hlink, List.mem_cons_self⟩
    · obtain ⟨place', target', hlink', hmem⟩ := h.pending p' hp'
      exact ⟨place', target', hlink', List.mem_cons_of_mem _ hmem⟩
  settled := by
    intro p' q hp'
    rw [Seen.find?_cons] at hp'
    split at hp'
    · cases hp'
    · exact h.settled p' q hp'

/-- Once it is known where it leads, it is under way no more. -/
theorem Searched.leave {r : Progress} {middle : Path} (hseen : Seen.Sound d cwd under seen)
    (hlink : d.LinkAt cwd (child here n) place target)
    (hinner : Resolves d cwd (place :: under) (startOf here target) (Path.splitSlashes target)
      middle)
    (h : Searched d cwd (place :: under) ((child here n, none) :: seen) middle r) :
    Seen.Sound d cwd under ((child here n, some r.path) :: r.seen)
      ∧ ∀ p, Seen.find? p ((child here n, some r.path) :: r.seen) = some none →
        seen.find? p = some none := by
  -- the link is settled now, so the pending ones are those from before
  have hpending : ∀ p, Seen.find? p ((child here n, some r.path) :: r.seen) = some none →
      seen.find? p = some none := by
    intro p hp
    rw [Seen.find?_cons] at hp
    split at hp
    · cases hp
    · rename_i hne
      have hp' := h.pending p hp
      rwa [Seen.find?_cons, if_neg hne] at hp'
  refine ⟨⟨fun p hp => hseen.pending p (hpending p hp), ?_⟩, hpending⟩
  intro p q hp
  rw [Seen.find?_cons] at hp
  split at hp
  · rename_i heq
    obtain rfl := heq
    cases hp
    rw [h.path_eq, parent_child]
    exact ⟨place, target, _, hlink, hinner⟩
  · exact h.sound.settled p q hp

/-- A link that is not under way is not known to be: if anything is remembered of it, it is
    where it leads. -/
theorem Seen.Sound.find?_of_fresh {middle : Path} (h : Seen.Sound d cwd under seen)
    (hlink : d.LinkAt cwd (child here n) place target) (hfresh : place ∉ under)
    (inner : Resolves d cwd under' (startOf here target) (Path.splitSlashes target) middle) :
    seen.find? (child here n) = none ∨ seen.find? (child here n) = some (some middle) := by
  cases hknown : seen.find? (child here n) with
  | none => exact Or.inl rfl
  | some known =>
      cases known with
      | none =>
          obtain ⟨place', target', hlink', hmem⟩ := h.pending _ hknown
          obtain ⟨rfl, rfl⟩ := hlink.unique hlink'
          exact absurd hmem hfresh
      | some known =>
          obtain ⟨place', target', under', hlink', hresolved⟩ := h.settled _ _ hknown
          obtain ⟨rfl, rfl⟩ := hlink.unique hlink'
          rw [parent_child] at hresolved
          rw [inner.unique hresolved]
          exact Or.inr rfl

/-! ## The search -/

section Equations

variable {onLink : Seen → Path → String → Progress}

theorem resolveWith_skip (hn : Path.isName n = false) :
    resolveWith onLink d cwd seen here (n :: rest) = resolveWith onLink d cwd seen here rest := by
  rw [resolveWith, if_pos (by simp [hn])]

/-- Two dots take one name back. -/
theorem resolveWith_up :
    resolveWith onLink d cwd seen here (".." :: rest)
      = resolveWith onLink d cwd seen here.stepBack rest := by
  rw [resolveWith, if_neg (by decide), if_pos rfl]

/-- A name that is looked at is decided by the link under it, if there is one. -/
theorem resolveWith_name (hn : Path.isName n = true) (hup : n ≠ "..")
    (hnul : (child here n).holdsNul = false) :
    resolveWith onLink d cwd seen here (n :: rest)
      = match d.linkAt? cwd (child here n) with
        | none => resolveWith onLink d cwd seen (child here n) rest
        | some target =>
            match seen.find? (child here n) with
            | some (some q) => resolveWith onLink d cwd seen q rest
            | some none => ⟨seen, child here n / Path.joinNames rest, .loop⟩
            | none =>
                let r := onLink ((child here n, none) :: seen) here target
                if r.ending = .complete then
                  resolveWith onLink d cwd ((child here n, some r.path) :: r.seen) r.path rest
                else ⟨r.seen, r.path / Path.joinNames rest, r.ending⟩ := by
  have hname : ¬(!Path.isName n) = true := by simp [hn]
  have hheld : ¬(child here n).holdsNul = true := by simp [hnul]
  rw [resolveWith]
  exact (if_neg hname).trans <| (if_neg hup).trans <| if_neg hheld

end Equations

/-- **The search finds what the names resolve to**, if its depth is enough for the links that
    are not under way yet. -/
theorem Resolves.searched (h : Resolves d cwd under here parts q) {depth : Nat}
    (hunder : UnderWay d under) (hdepth : d.linkCount ≤ depth + under.length)
    (hseen : Seen.Sound d cwd under seen) :
    Searched d cwd under seen q
      (resolveWith (resolveText d cwd depth) d cwd seen here parts) := by
  induction h generalizing depth seen with
  | done => exact ⟨rfl, rfl, hseen, fun _ hp => hp⟩
  | skip hn _ ih =>
      rw [resolveWith_skip hn]
      exact ih hunder hdepth hseen
  | up _ ih =>
      rw [resolveWith_up]
      exact ih hunder hdepth hseen
  | @keep under here q n rest hn hup hnul hlink _ ih =>
      rw [resolveWith_name hn hup hnul, linkAt?_eq_none hlink]
      exact ih hunder hdepth hseen
  | @follow under here middle q n target rest place hn hup hnul hlink hfresh inner _ ihInner
      ihTail =>
      rw [resolveWith_name hn hup hnul, linkAt?_eq_some_iff.mpr ⟨place, hlink⟩]
      dsimp only
      obtain hnew | hknown := hseen.find?_of_fresh hlink hfresh inner
      · rw [hnew]
        -- one more link is under way, so there is depth left for its target
        have hunder' := hunder.cons hlink.stands hfresh
        have hlength := hunder'.length_le
        rw [List.length_cons] at hlength
        obtain ⟨depth, rfl⟩ : ∃ k, depth = k + 1 := ⟨depth - 1, by omega⟩
        have hsearched := ihInner hunder'
          (show d.linkCount ≤ depth + _ by rw [List.length_cons]; omega) (hseen.enter hlink)
        obtain ⟨hsound, hpending⟩ := hsearched.leave hseen hlink inner
        dsimp only
        rw [resolveText, if_pos hsearched.complete, hsearched.path_eq]
        rw [hsearched.path_eq] at hsound hpending
        obtain ⟨hpath, hcomplete, hsound', hpending'⟩ := ihTail hunder hdepth hsound
        exact ⟨hpath, hcomplete, hsound', fun p hp => hpending p (hpending' p hp)⟩
      · rw [hknown]
        exact ihTail hunder hdepth hseen

/-! ## The resolved path -/

/-- Where the resolution of a path starts. -/
def start (p : Path) : Path := ⟨if p.isAbsolute then .root else .here, []⟩

/-- The names of a path resolve, and this is the resolved form. -/
def ResolvesTo (d : Disk) (cwd p q : Path) : Prop :=
  ∃ r, Resolves d cwd [] (start p) p.names r ∧ q = r.normalize cwd

/-- A path runs into no loop of links: its names resolve, and the system does not take what
    they resolve to for a loop. -/
def LoopFree (d : Disk) (cwd p : Path) : Prop :=
  ∃ q, ResolvesTo d cwd p q ∧ d.find cwd .target q ≠ .error .tooManyLinks

/-- A path resolves to one path only. -/
theorem ResolvesTo.unique (h : ResolvesTo d cwd p q) (h' : ResolvesTo d cwd p q') : q = q' := by
  obtain ⟨r, hr, rfl⟩ := h
  obtain ⟨r', hr', rfl⟩ := h'
  rw [hr.unique hr']

/-- The text of a canonical path starts where the path does. -/
theorem startOf_text (hp : p.Canonical) : startOf ⟨.here, []⟩ p.text = start p := by
  have hanchor : Path.anchorOf p.text = p.anchor := congrArg Path.anchor (Path.ofString_text hp)
  unfold startOf start Path.isAbsolute
  rw [hanchor]
  cases p.anchor <;> rfl

/-- To normalize a path brings no zero octet into it. -/
theorem holdsNul_normalize (hcwd : cwd.holdsNul = false) (hq : q.holdsNul = false) :
    (q.normalize cwd).holdsNul = false := by
  -- to drop two dots takes names away and makes no new ones
  have hdrop : ∀ (names done : List String), (∀ n ∈ names, '\x00' ∉ n.toList) →
      (∀ n ∈ done, '\x00' ∉ n.toList) →
      ∀ n ∈ Path.dropDotDots done names, '\x00' ∉ n.toList := by
    intro names
    induction names with
    | nil =>
        intro done _ hdone n hn
        exact hdone n (List.mem_reverse.mp hn)
    | cons m names ih =>
        intro done hnames hdone
        obtain ⟨hm, hnames⟩ := List.forall_mem_cons.mp hnames
        rw [Path.dropDotDots]
        split
        · exact ih _ hnames fun n hn => hdone n (List.mem_of_mem_tail hn)
        · exact ih _ hnames (List.forall_mem_cons.mpr ⟨hm, hdone⟩)
  have hmem : ∀ p : Path, p.holdsNul = false ↔ ∀ n ∈ p.names, '\x00' ∉ n.toList := by
    intro p
    simp [Path.holdsNul]
  rw [hmem] at hcwd hq ⊢
  refine hdrop _ _ ?_ (by simp)
  intro n hn
  unfold Path.absoluteNames at hn
  cases habs : q.isAbsolute with
  | true =>
      rw [show (cwd / q) = q from if_pos habs] at hn
      exact hq n hn
  | false =>
      rw [show (cwd / q) = ⟨cwd.anchor, cwd.names ++ q.names⟩ from if_neg (by simp [habs])] at hn
      exact (List.mem_append.mp hn).elim (hcwd n) (hq n)

/-- **A path that runs into no loop is resolved**, to its resolved form. -/
theorem LoopFree.resolve_eq (h : LoopFree d cwd p) (hp : p.Canonical)
    (hcwd : cwd.holdsNul = false) :
    ∃ q, d.resolve cwd p = .ok q ∧ ResolvesTo d cwd p q := by
  obtain ⟨q, hresolves, hfind⟩ := h
  refine ⟨q, ?_, hresolves⟩
  obtain ⟨r, hr, rfl⟩ := hresolves
  have hnames : p.names = (Path.splitSlashes p.text).filter Path.isName :=
    congrArg Path.names (Path.ofString_text hp).symm
  have hsearched : Searched d cwd [] [] r
      (d.resolveText cwd (d.chainLimit cwd + 1) [] ⟨.here, []⟩ p.text) := by
    rw [resolveText, startOf_text hp]
    rw [hnames] at hr
    refine hr.of_filter.searched ⟨List.nodup_nil, by simp⟩ ?_
      ⟨by simp [Seen.find?], by simp [Seen.find?]⟩
    rw [List.length_nil, Nat.add_zero]
    exact Nat.le_mul_of_pos_right _ (by omega)
  have hnul : (r.normalize cwd).holdsNul = false := holdsNul_normalize hcwd (hr.noNul rfl)
  unfold resolve
  rw [if_neg (by rw [hsearched.complete]; decide), hsearched.path_eq]
  -- by `hfind`, the look-up of the resolved path does not end in a loop
  simp only [checkNul_of_not_holdsNul hnul, bind, Except.bind]

end RoundTrip.Disk
