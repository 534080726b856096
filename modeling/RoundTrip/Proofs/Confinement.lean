import RoundTrip.Proofs.Edit
import RoundTrip.World.Basic

/-! # Effects below a directory

    A process that runs in a directory may change what the directory contains.
    This file says that it changes nothing else: **`Effect.keeps_changesBelow`**.

    A disk is `Confined` if it differs from another in the content of a directory only;
    effects that go through the directory keep it so: **`Confined.effects`**.

    The route: a path *passes through* a directory if it leads there, whatever
    the directory contains, and then goes on to an entry of it.  Where the
    directory holds no link, every look-up of such a path ends below that entry
    (`PassesThrough.below`), and what the path needs above it is there already
    (`PassesThrough.find_entry`).  So each operation on such a path changes the disk
    below that entry only, and makes no link. -/

namespace RoundTrip

/-- A path that goes on from another goes on from it as an absolute path too. -/
theorem Path.absoluteNames_prefix {cwd : Path} {anchor : Anchor} {xs ys : List String}
    (h : xs <+: ys) :
    (⟨anchor, xs⟩ : Path).absoluteNames cwd <+: (⟨anchor, ys⟩ : Path).absoluteNames cwd := by
  cases anchor with
  | here => exact (List.prefix_append_right_inj cwd.names).mpr h
  | root => exact h
  | doubleRoot => exact h

namespace Disk

/-- Two disks differ only at a place and below it, and the second has no link
    there that the first did not have. -/
structure ChangesBelow (p : Place) (d d' : Disk) : Prop where
  outside : ∀ q, ¬ p <+: q → d'.get? q = d.get? q
  noNewLink : ∀ q target, p <+: q → d'.get? q = some (.link target) →
    d.get? q = some (.link target)

namespace ChangesBelow

variable {p : Place} {d d' d'' : Disk}

theorem refl (p : Place) (d : Disk) : ChangesBelow p d d :=
  ⟨fun _ _ => rfl, fun _ _ _ h => h⟩

/-- A node that is put below the place changes what is below it. -/
theorem put {q : Place} {node : Node} (h : ChangesBelow p d d') (hq : p <+: q) (hp : p ≠ [])
    (hn : ∀ target, node ≠ .link target) : ChangesBelow p d (d'.put q node) := by
  have hq0 : q ≠ [] := fun h0 => hp (List.prefix_nil.mp (h0 ▸ hq))
  refine ⟨fun r hr => ?_, fun r target hr hl => ?_⟩
  · have hrq : r ≠ q := by
      rintro rfl
      exact hr hq
    rw [get?_put d' q r node hq0, if_neg hrq]
    exact h.outside r hr
  · rw [get?_put d' q r node hq0] at hl
    by_cases hrq : r = q
    · rw [if_pos hrq] at hl
      exact absurd (Option.some.inj hl) (hn target)
    · rw [if_neg hrq] at hl
      exact h.noNewLink r target hr hl

/-- So does one that is erased there. -/
theorem erase {q : Place} (h : ChangesBelow p d d') (hq : p <+: q) :
    ChangesBelow p d (d'.erase q) := by
  refine ⟨fun r hr => ?_, fun r target hr hl => ?_⟩
  · by_cases hr0 : r = []
    · subst hr0
      rfl
    · have hrq : r ≠ q := by
        rintro rfl
        exact hr hq
      rw [get?_erase d' q r hr0, if_neg hrq]
      exact h.outside r hr
  · by_cases hr0 : r = []
    · subst hr0
      cases hl
    · rw [get?_erase d' q r hr0] at hl
      split at hl
      · cases hl
      · exact h.noNewLink r target hr hl

/-- So does a tree. -/
theorem eraseTree {q : Place} (h : ChangesBelow p d d') (hq : p <+: q) :
    ChangesBelow p d (d'.eraseTree q) := by
  have hget : ∀ r, (d'.eraseTree q).get? r = d'.get? r ∨ q <+: r ∧ (d'.eraseTree q).get? r = none ∨
      r = [] := by
    intro r
    by_cases hr : r = []
    · exact Or.inr (Or.inr hr)
    · rw [get?_eraseTree d' q r hr]
      by_cases hqr : q.isPrefixOf r = true
      · exact Or.inr (Or.inl ⟨List.isPrefixOf_iff_prefix.mp hqr, if_pos hqr⟩)
      · exact Or.inl (if_neg hqr)
  refine ⟨fun r hr => ?_, fun r target hr hl => ?_⟩
  · rcases hget r with hsame | ⟨hqr, -⟩ | rfl
    · rw [hsame]
      exact h.outside r hr
    · exact absurd (hq.trans hqr) hr
    · rfl
  · rcases hget r with hsame | ⟨-, hnone⟩ | rfl
    · rw [hsame] at hl
      exact h.noNewLink r target hr hl
    · rw [hnone] at hl
      cases hl
    · cases hl

end ChangesBelow

/-- A directory is held by its place: no link stands at it or below it. -/
def LinkFree (d : Disk) (place : Place) : Prop :=
  ∀ rest target, d.get? (place ++ rest) ≠ some (.link target)

/-- Names lead to a directory, whatever that directory contains, and go on to the
    entry `n` of it. -/
structure PassesThrough (d : Disk) (place : Place) (n : String) (names : List String) : Prop where
  isName : Path.isName n = true
  noUp : ".." ∉ names
  route : ∃ base rest, names = base ++ n :: rest ∧
    (d.eraseBelow place).locate .target linkLimit [] base = .ok place

/-- Elsewhere nothing is erased. -/
theorem get?_eraseBelow_of_ne {d : Disk} {place q : Place}
    (h : ∀ n rest, q ≠ place ++ n :: rest) : (d.eraseBelow place).get? q = d.get? q := by
  by_cases hq : q = []
  · subst hq
    rfl
  · rw [get?_eraseBelow d place q hq, if_neg]
    rintro ⟨hne, hpre⟩
    obtain ⟨tail, rfl⟩ := List.isPrefixOf_iff_prefix.mp hpre
    cases tail with
    | nil => exact hne (List.append_nil _)
    | cons n rest => exact h n rest rfl

/-- What stands outside the content of a directory stands there too when the
    content is gone; what stands inside does not. -/
theorem get?_of_eraseBelow {d : Disk} {place q : Place} {node : Node}
    (h : (d.eraseBelow place).get? q = some node) :
    (∀ n rest, q ≠ place ++ n :: rest) ∧ d.get? q = some node := by
  have hout : ∀ n rest, q ≠ place ++ n :: rest := by
    intro n rest hq
    have hq0 : q ≠ [] := by rw [hq]; simp
    rw [get?_eraseBelow d place q hq0, if_pos] at h
    · cases h
    · refine ⟨?_, List.isPrefixOf_iff_prefix.mpr ?_⟩
      · rw [hq]; simp
      · rw [hq]; exact List.prefix_append _ _
  exact ⟨hout, (get?_eraseBelow_of_ne hout).symm.trans h⟩

/-- A look-up that does not need the content of a directory is the same on every
    disk that differs in that content only. -/
theorem Leads.of_eraseBelow {d d' : Disk} {place : Place} {aim : Aim} {links : Nat}
    {here q : Place} {names : List String}
    (h : Leads (d.eraseBelow place) aim links here names q)
    (hout : ∀ q, (∀ n rest, q ≠ place ++ n :: rest) → d'.get? q = d.get? q)
    (hq : ∀ target, d'.get? q = some (.link target) → aim = .entry) :
    Leads d' aim links here names q := by
  refine h.transfer (fun p hp => ?_) (fun p target hp => ?_) hq
  · obtain ⟨hne, hd⟩ := get?_of_eraseBelow hp
    rw [hout p hne, hd]
  · obtain ⟨hne, hd⟩ := get?_of_eraseBelow hp
    rw [hout p hne, hd]

namespace PassesThrough

variable {d d' : Disk} {place q : Place} {n : String} {names xs : List String} {aim : Aim}
  {links : Nat}

/-- What is known of a disk on which only an entry of a directory has changed. -/
theorem same_outside (hc : ChangesBelow (place ++ [n]) d d') (q : Place)
    (hq : ∀ m rest, q ≠ place ++ m :: rest) : d'.get? q = d.get? q := by
  refine hc.outside q ?_
  rintro ⟨rest, rfl⟩
  exact hq n rest (by simp)

/-- A change that makes no link leaves the place free of them. -/
theorem linkFree (hl : LinkFree d place) (hc : ChangesBelow (place ++ [n]) d d') :
    LinkFree d' place := by
  intro rest target h
  -- below the entry no link is new, and beside it nothing has changed
  by_cases hq : place ++ [n] <+: place ++ rest
  · exact hl rest target (hc.noNewLink _ target hq h)
  · rw [hc.outside _ hq] at h
    exact hl rest target h

/-- The way to the directory is the same on the changed disk. -/
theorem leads_base {base : List String}
    (hb : (d.eraseBelow place).locate .target linkLimit [] base = .ok place)
    (hl : LinkFree d place) (hc : ChangesBelow (place ++ [n]) d d') :
    Leads d' .target linkLimit [] base place := by
  refine (locate_eq_ok_iff.mp hb).of_eraseBelow (same_outside hc) (fun target ht => ?_)
  rw [← List.append_nil place] at ht
  exact absurd ht (linkFree hl hc [] target)

/-- Names that go on to the entry lead to it or below it. -/
theorem below {base rest : List String} (h : PassesThrough d place n names)
    (hb : (d.eraseBelow place).locate .target linkLimit [] base = .ok place)
    (hx : base ++ n :: rest <+: names) (hl : LinkFree d place)
    (hc : ChangesBelow (place ++ [n]) d d')
    (hq : Leads d' aim links [] (base ++ n :: rest) q) : place ++ [n] <+: q := by
  obtain ⟨middle, fewer, hm, htail⟩ := hq.append_inv (List.cons_ne_nil _ _)
  cases hm.unique (leads_base hb hl hc)
  refine htail.within_cons h.isName (linkFree hl hc) (fun hup => h.noUp ?_)
  exact hx.subset (List.mem_append_right _ hup)

/-- A path along the names leads below the entry, or to something that is there. -/
theorem find_entry {cwd p : Path} (h : PassesThrough d place n names) (hl : LinkFree d place)
    (hdir : d.get? place = some .dir) (hc : ChangesBelow (place ++ [n]) d d')
    (hx : p.absoluteNames cwd <+: names) (hq : d'.find cwd .entry p = .ok q) :
    place ++ [n] <+: q ∨ (d'.get? q).isSome := by
  have hlead : Leads d' .entry linkLimit [] (p.absoluteNames cwd) q := (find_eq_ok_iff.mp hq).2
  generalize p.absoluteNames cwd = xs at hx hlead
  obtain ⟨base, rest, rfl, hb⟩ := h.route
  have hdir' : d'.get? place = some .dir := by
    rw [same_outside hc place (by simp), hdir]
  -- the names stop on the way to the directory, or in it, or they go on to the entry
  rcases List.prefix_or_prefix_of_prefix hx (List.prefix_append base (n :: rest)) with
    hshort | ⟨tail, rfl⟩
  · exact Or.inr ((leads_base hb hl hc).isSome_along (by simp [hdir']) hshort hlead)
  · cases tail with
    | nil =>
        refine Or.inr ((leads_base hb hl hc).isSome_along (by simp [hdir']) ?_ hlead)
        simp
    | cons m tail =>
        have hm : m :: tail <+: n :: rest := (List.prefix_append_right_inj base).mp hx
        obtain ⟨rfl, -⟩ := List.cons_prefix_cons.mp hm
        exact Or.inl (h.below hb hx hl hc hlead)

/-- The path itself leads below the entry. -/
theorem find_below {cwd p : Path} (h : PassesThrough d place n (p.absoluteNames cwd))
    (hl : LinkFree d place) (hc : ChangesBelow (place ++ [n]) d d')
    (hq : d'.find cwd aim p = .ok q) : place ++ [n] <+: q := by
  obtain ⟨-, hlead⟩ := find_eq_ok_iff.mp hq
  obtain ⟨base, rest, heq, hb⟩ := h.route
  rw [heq] at h hlead
  exact h.below hb (List.prefix_refl _) hl hc hlead

end PassesThrough

/-! ## Operations on such a path -/

section Operations

variable {d : Disk} {place : Place} {n : String} {names xs : List String} {cwd p : Path}

theorem keeps_makeDirsFrom {anchor : Anchor} (h : PassesThrough d place n names)
    (hl : LinkFree d place) (hdir : d.get? place = some .dir)
    (hx : (⟨anchor, xs⟩ : Path).absoluteNames cwd <+: names) :
    Step.Keeps (ChangesBelow (place ++ [n]) d) (makeDirsFrom cwd anchor xs.reverse) := by
  -- one directory is made below the entry or not at all
  have henter : ∀ (q : Path) (onMissing : Edit Unit), q.absoluteNames cwd <+: names →
      Step.Keeps (ChangesBelow (place ++ [n]) d) onMissing →
      Step.Keeps (ChangesBelow (place ++ [n]) d) (enterDir cwd q onMissing) := by
    intro q onMissing hy hon d' hc
    rcases endState_enterDir cwd q onMissing d' with he | he | ⟨r, hr, hnone, he⟩
    · rw [he]
      exact hc
    · rw [he]
      exact hon d' hc
    · rw [he]
      rcases h.find_entry hl hdir hc hy hr with hbelow | hsome
      · exact hc.put hbelow (by simp) (fun target => by simp)
      · rw [hnone] at hsome
        cases hsome
  -- the directories above come first, so the induction drops the last name
  induction hr : xs.reverse generalizing xs with
  | nil =>
      rw [List.reverse_eq_nil_iff] at hr
      subst hr
      rw [makeDirsFrom]
      exact henter _ _ hx (Step.keeps_throw _)
  | cons m up ih =>
      have hxs : xs = up.reverse ++ [m] := by
        rw [← List.reverse_reverse xs, hr, List.reverse_cons]
      rw [makeDirsFrom, ← hr, List.reverse_reverse]
      refine henter _ _ hx (Step.keeps_bind ?_ fun _ => henter _ _ hx (Step.keeps_throw _))
      have hup : up.reverse <+: xs := hxs ▸ List.prefix_append _ _
      exact ih ((Path.absoluteNames_prefix hup).trans hx) (List.reverse_reverse up)

/-- The directories of a way through the name are made below it. -/
theorem keeps_makeDirs (h : PassesThrough d place n names) (hl : LinkFree d place)
    (hdir : d.get? place = some .dir) (hx : p.absoluteNames cwd <+: names) :
    Step.Keeps (ChangesBelow (place ++ [n]) d) (makeDirs cwd p) := by
  unfold makeDirs
  exact Step.keeps_bind (Step.keeps_ofExcept _ _) fun _ => keeps_makeDirsFrom h hl hdir hx

theorem keeps_write {content : Bytes} (h : PassesThrough d place n (p.absoluteNames cwd))
    (hl : LinkFree d place) :
    Step.Keeps (ChangesBelow (place ++ [n]) d)
      (Step.attempt id (write · cwd p content) : Edit Unit) := by
  refine Step.keeps_attempt fun d' d'' hc hw => ?_
  obtain ⟨-, q, hq, -, rfl⟩ := write_eq_ok hw
  exact hc.put (h.find_below hl hc hq) (by simp) (fun target => by simp)

/-- A file on such a way is written below it, with its directories. -/
theorem keeps_writeWithParents {content : Bytes}
    (h : PassesThrough d place n (p.absoluteNames cwd)) (hl : LinkFree d place)
    (hdir : d.get? place = some .dir) :
    Step.Keeps (ChangesBelow (place ++ [n]) d) (writeWithParents cwd p content) := by
  unfold writeWithParents
  refine Step.keeps_bind ?_ fun _ => keeps_write h hl
  exact keeps_makeDirs h hl hdir (Path.absoluteNames_prefix (List.dropLast_prefix _))

/-- What is discarded on such a way was below it. -/
theorem keeps_discard (h : PassesThrough d place n (p.absoluteNames cwd)) (hl : LinkFree d place) :
    Step.Keeps (ChangesBelow (place ++ [n]) d)
      (Step.attempt id (discard · cwd p) : Edit Unit) := by
  refine Step.keeps_attempt fun d' d'' hc hw => ?_
  rcases discard_eq_ok hw with rfl | ⟨q, hq, rfl⟩
  · exact hc
  · exact hc.eraseTree (h.find_below hl hc hq)

/-- An unlinking takes the entry or one below it. -/
theorem changesBelow_of_unlink {d' d'' : Disk}
    (h : PassesThrough d place n (p.absoluteNames cwd)) (hl : LinkFree d place)
    (hc : ChangesBelow (place ++ [n]) d d') (hu : d'.unlink cwd p = .ok d'') :
    ChangesBelow (place ++ [n]) d d'' := by
  obtain ⟨q, hq, -, rfl⟩ := unlink_eq_ok hu
  exact hc.erase (h.find_below hl hc hq)

end Operations

end Disk

namespace Effect

/-- The path of an effect. -/
def path : Effect → Path
  | .write p _ => p
  | .makeDir p => p
  | .link p _ => p
  | .remove p => p

/-- Whether an effect makes a link. -/
def makesLink : Effect → Bool
  | .link _ _ => true
  | _ => false

/-- **An effect on a path that goes through a directory without links changes
    nothing but the entry it goes to**, whichever way it ends. -/
theorem keeps_changesBelow {d : Disk} {place : Place} {n : String} {cwd : Path} {e : Effect}
    (h : d.PassesThrough place n (e.path.normalNames cwd)) (he : e.makesLink = false)
    (hl : d.LinkFree place) (hdir : d.get? place = some .dir) :
    Step.Keeps (Disk.ChangesBelow (place ++ [n]) d) (e.apply cwd) := by
  cases e with
  | write p content => exact Disk.keeps_writeWithParents h hl hdir
  | makeDir p => exact Disk.keeps_makeDirs h hl hdir (List.prefix_refl _)
  | link p target => cases he
  | remove p => exact Disk.keeps_discard h hl

end Effect

theorem Path.dotdot_not_mem_dropDotDots (names done : List String) (h : ".." ∉ done) :
    ".." ∉ Path.dropDotDots done names := by
  induction names generalizing done with
  | nil => simpa [Path.dropDotDots] using h
  | cons n names ih =>
      rw [Path.dropDotDots]
      by_cases hn : n = ".."
      · rw [if_pos hn]
        exact ih _ (fun hm => h (List.mem_of_mem_tail hm))
      · rw [if_neg hn]
        refine ih _ ?_
        rintro (_ | ⟨_, hm⟩)
        · exact hn rfl
        · exact h hm

/-! ## Disks that differ in one directory -/

/-- A disk differs from another in the content of a directory only, and there is no
    link in that. -/
structure Confined (d₀ : Disk) (place : Place) (d : Disk) : Prop where
  outside : ∀ q, (∀ n rest, q ≠ place ++ n :: rest) → d.get? q = d₀.get? q
  linkFree : d.LinkFree place

namespace Confined

variable {d₀ d d' : Disk} {place : Place} {n : String}

theorem refl (h : d.LinkFree place) : Confined d place d := ⟨fun _ _ => rfl, h⟩

/-- The directory itself stays. -/
theorem get?_place (h : Confined d₀ place d) : d.get? place = d₀.get? place :=
  h.outside place (by simp)

/-- An entry of the directory may change. -/
theorem changesBelow (h : Confined d₀ place d) (hc : d.ChangesBelow (place ++ [n]) d') :
    Confined d₀ place d' := by
  refine ⟨fun q hq => ?_, Disk.PassesThrough.linkFree h.linkFree hc⟩
  rw [Disk.PassesThrough.same_outside hc q hq, h.outside q hq]

/-- Without the content of the directory there is no difference. -/
theorem get?_eraseBelow (h : Confined d₀ place d) (q : Place) :
    (d.eraseBelow place).get? q = (d₀.eraseBelow place).get? q := by
  by_cases hq : ∃ n rest, q = place ++ n :: rest
  · obtain ⟨n, rest, rfl⟩ := hq
    rw [Disk.get?_eraseBelow _ _ _ (by simp), Disk.get?_eraseBelow _ _ _ (by simp),
      if_pos (by simp), if_pos (by simp)]
  · have hout : ∀ n rest, q ≠ place ++ n :: rest := fun n rest hn => hq ⟨n, rest, hn⟩
    rw [Disk.get?_eraseBelow_of_ne hout, Disk.get?_eraseBelow_of_ne hout, h.outside q hout]

/-- The way to the directory is the same. -/
theorem locate_eq (h : Confined d₀ place d) {base : List String}
    (hb : (d₀.eraseBelow place).locate .target Disk.linkLimit [] base = .ok place) :
    (d.eraseBelow place).locate .target Disk.linkLimit [] base = .ok place := by
  refine Disk.locate_eq_ok_iff.mpr ((Disk.locate_eq_ok_iff.mp hb).transfer ?_ ?_ ?_)
  · exact fun p hp => (h.get?_eraseBelow p).trans hp
  · exact fun p target hp => (h.get?_eraseBelow p).trans hp
  · intro target hp
    obtain ⟨-, hd⟩ := Disk.get?_of_eraseBelow hp
    rw [← List.append_nil place] at hd
    exact absurd hd (h.linkFree [] target)

end Confined

/-- An effect goes through a directory: it makes no link, and its path leads to the
    directory, whatever that contains, and on to an entry of it. -/
structure Effect.GoesThrough (d : Disk) (cwd : Path) (place : Place) (n : String) (e : Effect) :
    Prop where
  noLink : e.makesLink = false
  isName : Path.isName n = true
  route : ∃ base rest, e.path.normalNames cwd = base ++ n :: rest ∧
    (d.eraseBelow place).locate .target Disk.linkLimit [] base = .ok place

/-- What each of the effects keeps is kept by all of them, one after the other. -/
theorem Effect.keeps_applyAll {P : Disk → Prop} {cwd : Path} {es : List Effect}
    (hes : ∀ e ∈ es, Step.Keeps P (e.apply cwd)) : Step.Keeps P (Effect.applyAll cwd es) := by
  induction es with
  | nil => exact Step.keeps_pure ()
  | cons e es ih =>
      obtain ⟨he, hes⟩ := List.forall_mem_cons.mp hes
      exact Step.keeps_bind he fun _ => ih hes

namespace Confined

variable {d₀ d : Disk} {place : Place} {n : String} {cwd : Path}

/-- Such an effect changes nothing but that entry. -/
theorem changesBelow_effect {e : Effect} (h : Confined d₀ place d)
    (hdir : d₀.get? place = some .dir) (he : e.GoesThrough d₀ cwd place n) :
    d.ChangesBelow (place ++ [n]) (Step.endState (e.apply cwd d)) := by
  obtain ⟨base, rest, hnames, hbase⟩ := he.route
  have hpass : d.PassesThrough place n (e.path.normalNames cwd) :=
    ⟨he.isName, Path.dotdot_not_mem_dropDotDots _ [] (by simp), base, rest, hnames,
      h.locate_eq hbase⟩
  exact Effect.keeps_changesBelow hpass he.noLink h.linkFree (h.get?_place.trans hdir) d
    (.refl _ _)

/-- Effects that go through the directory change nothing but its content. -/
theorem effects {es : List Effect} (hdir : d₀.get? place = some .dir)
    (hes : ∀ e ∈ es, ∃ n, e.GoesThrough d₀ cwd place n) :
    Step.Keeps (Confined d₀ place) (Effect.applyAll cwd es) := by
  refine Effect.keeps_applyAll fun e he d h => ?_
  obtain ⟨n, hn⟩ := hes e he
  exact h.changesBelow (h.changesBelow_effect hdir hn)

end Confined

end RoundTrip
