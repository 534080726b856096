import RoundTrip.Proofs.Artifact
import RoundTrip.Proofs.Frame
import RoundTrip.Proofs.Path

/-! # The workspace of a case

    A `Site` is a path that leads to a place where nothing stands, by names that go
    up nowhere.  A directory that is made there is reached whatever it contains, so
    what is written and removed in it, and effects that stay below it, change its
    content only (`Site.store`, `Site.removeIfPresent`, `Site.effects`); and its
    removal takes it away with all of that: **`Site.get?_removeTree`**.

    On a disk on which everything stands in a directory, each workspace that is made
    stands at a site: `Site.of_create`. -/

namespace RoundTrip

/-! ## Disks on which everything stands in a directory -/

/-- What stands somewhere stands in a directory. -/
def Disk.Closed (d : Disk) : Prop := ∀ p n, (d.get? (p ++ [n])).isSome → d.get? p = some .dir

/-- A disk is closed if the prefixes of its places are directories. -/
theorem Disk.Closed.of_places {d : Disk}
    (h : ∀ p ∈ d.places, ∀ m < p.length, d.get? (p.take m) = some .dir) : d.Closed := by
  intro p n hsome
  obtain ⟨node, hnode⟩ := Option.isSome_iff_exists.mp hsome
  unfold Disk.get? at hnode
  rw [if_neg (by simp)] at hnode
  have hmem : p ++ [n] ∈ d.places := List.mem_map_of_mem (Disk.mem_of_find? hnode)
  have hdir := h _ hmem p.length (by simp)
  rwa [List.take_left] at hdir

/-- To be closed is a matter of what stands where. -/
theorem Disk.Closed.congr {d d' : Disk} (h : d.Closed) (hsame : ∀ q, d'.get? q = d.get? q) :
    d'.Closed := by
  intro p n hsome
  rw [hsame] at hsome ⊢
  exact h p n hsome

/-- Below a place where nothing stands, nothing stands. -/
theorem Disk.Closed.get?_below {d : Disk} {p : Place} (h : d.Closed) (hp : d.get? p = none)
    (rest : List String) : d.get? (p ++ rest) = none := by
  induction rest using List.reverseRecOn with
  | nil => rwa [List.append_nil]
  | append_singleton rest n ih =>
      rw [← List.append_assoc]
      by_contra hne
      have hdir := h _ n (Option.isSome_iff_ne_none.mpr hne)
      rw [ih] at hdir
      cases hdir

/-! ## Effects below the directory of a process -/

/-- An effect stays below the directory of its process: it makes no link, and its
    path, taken as text, goes on from the directory to an entry of it. -/
structure Effect.StaysBelow (cwd : Path) (e : Effect) : Prop where
  noLink : e.makesLink = false
  below : ∃ n rest, e.path.normalNames cwd = cwd.plainNames ++ n :: rest ∧ Path.isName n = true

/-! ## Sites -/

/-- A path leads to a place where nothing stands.  It ends in a name, and none of
    its names goes up. -/
structure Site (d : Disk) (cwd p : Path) (place : Place) : Prop where
  noNul : p.holdsNul = false
  noUp : ".." ∉ p.absoluteNames cwd
  named : ∃ n, p.names.getLast? = some n ∧ n ≠ ""
  leads : d.find cwd .entry p = .ok place
  free : ∀ rest, d.get? (place ++ rest) = none

namespace Site

variable {d₀ d : Disk} {cwd p : Path} {place : Place}

theorem ne_nil (h : Site d₀ cwd p place) : place ≠ [] := by
  rintro rfl
  have hroot := h.free []
  cases hroot

/-- The disk with the directory. -/
theorem get?_put (h : Site d₀ cwd p place) (q : Place) :
    (d₀.put place .dir).get? q = if q = place then some .dir else d₀.get? q :=
  Disk.get?_put d₀ place q .dir h.ne_nil

theorem get?_put_place (h : Site d₀ cwd p place) : (d₀.put place .dir).get? place = some .dir := by
  rw [h.get?_put, if_pos rfl]

/-- A new directory has no link in it. -/
theorem linkFree (h : Site d₀ cwd p place) : (d₀.put place .dir).LinkFree place := by
  intro rest target hl
  rw [h.get?_put] at hl
  split at hl
  · cases hl
  · rw [h.free] at hl
    cases hl

/-- Whatever the directory contains, its path leads to it. -/
theorem leads_eraseBelow (h : Site d₀ cwd p place) (hc : Confined (d₀.put place .dir) place d) :
    Disk.Leads (d.eraseBelow place) .entry Disk.linkLimit [] (p.absoluteNames cwd) place := by
  -- the look-up led there before the directory was made, and nothing that it met then is in
  -- the directory
  have hsame : ∀ q node, d₀.get? q = some node → (d.eraseBelow place).get? q = some node := by
    intro q node hq
    have hout : ∀ n rest, q ≠ place ++ n :: rest := by
      rintro n rest rfl
      rw [h.free] at hq
      cases hq
    have hne : q ≠ place := by
      rintro rfl
      have hfree := h.free []
      rw [List.append_nil, hq] at hfree
      cases hfree
    rw [hc.get?_eraseBelow, Disk.get?_eraseBelow_of_ne hout, h.get?_put, if_neg hne, hq]
  exact (Disk.find_eq_ok_iff.mp h.leads).2.transfer (fun q hq => hsame q _ hq)
    (fun q target hq => hsame q _ hq) (fun _ _ => rfl)

theorem find_eraseBelow (h : Site d₀ cwd p place) (hc : Confined (d₀.put place .dir) place d) :
    (d.eraseBelow place).find cwd .entry p = .ok place :=
  Disk.find_eq_ok_iff.mpr ⟨(Disk.find_eq_ok_iff.mp h.leads).1, h.leads_eraseBelow hc⟩

/-- The path of the workspace leads to its place, whatever was done below. -/
theorem find_eq (h : Site d₀ cwd p place) (hc : Confined (d₀.put place .dir) place d) :
    d.find cwd .entry p = .ok place :=
  Disk.find_eq_ok_iff.mpr ⟨(Disk.find_eq_ok_iff.mp h.leads).1,
    (h.leads_eraseBelow hc).of_eraseBelow (fun _ _ => rfl) (fun _ _ => rfl)⟩

theorem locate_eq (h : Site d₀ cwd p place) :
    ((d₀.put place .dir).eraseBelow place).locate .target Disk.linkLimit [] (p.absoluteNames cwd)
      = .ok place := by
  obtain ⟨n, hlast, hne⟩ := h.named
  obtain ⟨above, habove⟩ := Path.absoluteNames_of_getLast? hlast cwd
  refine Disk.locate_eq_ok_iff.mpr ((h.leads_eraseBelow (.refl h.linkFree)).of_entry ?_ ?_ .target)
  · rw [habove, List.getLast?_concat]
    simpa using hne
  · intro target hl
    obtain ⟨-, hlink⟩ := Disk.get?_of_eraseBelow hl
    rw [h.get?_put_place] at hlink
    cases hlink

/-! ### What happens in the directory -/

/-- The path of an artifact goes through the directory. -/
theorem passesThrough (h : Site d₀ cwd p place) (hc : Confined (d₀.put place .dir) place d)
    (a : Artifact) : d.PassesThrough place a.name ((a.path p).absoluteNames cwd) := by
  rw [Artifact.absoluteNames_path]
  refine ⟨a.isName_name, ?_, _, [], rfl, hc.locate_eq h.locate_eq⟩
  intro hup
  obtain hup | hup := List.mem_append.mp hup
  · exact h.noUp hup
  · exact a.name_ne_dotdot (List.mem_singleton.mp hup).symm

/-- Writing an artifact changes the content of the directory only. -/
theorem store (h : Site d₀ cwd p place) {w : World} (hw : w.cwd = cwd)
    (hc : Confined (d₀.put place .dir) place w.disk) (a : Artifact) (content : Bytes) :
    Confined (d₀.put place .dir) place
      (Step.endState (Workspace.store (a.path p) content w)).disk := by
  subst hw
  rw [endState_store]
  exact hc.changesBelow (Disk.keeps_writeWithParents (h.passesThrough hc a) hc.linkFree
    (hc.get?_place.trans h.get?_put_place) w.disk (.refl _ _))

/-- So does removing one. -/
theorem removeIfPresent (h : Site d₀ cwd p place) {w : World} (hw : w.cwd = cwd)
    (hc : Confined (d₀.put place .dir) place w.disk) (a : Artifact) :
    Confined (d₀.put place .dir) place
      (Step.endState (Workspace.removeIfPresent (a.path p) w)).disk := by
  subst hw
  obtain hend | ⟨d, hunlink, hend⟩ := endState_removeIfPresent (a.path p) w
  · rw [hend]
    exact hc
  · rw [hend]
    exact hc.changesBelow
      (Disk.changesBelow_of_unlink (h.passesThrough hc a) hc.linkFree (.refl _ _) hunlink)

/-- So do the effects of a process that stay below the directory. -/
theorem effects (h : Site d₀ cwd p place) {es : List Effect}
    (hes : ∀ e ∈ es, e.StaysBelow (cwd / p)) :
    Step.Keeps (Confined (d₀.put place .dir) place) (Effect.applyAll (cwd / p) es) := by
  refine Confined.effects h.get?_put_place fun e he => ?_
  obtain ⟨n, rest, hnames, hn⟩ := (hes e he).below
  have hplain : (cwd / p).plainNames = p.absoluteNames cwd :=
    Path.dropDotDots_of_not_mem [] h.noUp
  rw [hplain] at hnames
  exact ⟨n, (hes e he).noLink, hn, _, rest, hnames, h.locate_eq⟩

/-- **The removal of the directory leaves the disk as it was before.** -/
theorem get?_removeTree (h : Site d₀ cwd p place) (hc : Confined (d₀.put place .dir) place d)
    (q : Place) : (Step.endState (Disk.removeTree cwd p d)).get? q = d₀.get? q := by
  obtain ⟨n, hlast, -⟩ := h.named
  have hn : n ≠ ".." := by
    rintro rfl
    obtain ⟨above, habove⟩ := Path.absoluteNames_of_getLast? hlast cwd
    exact h.noUp (by simp [habove])
  rw [Disk.removeTree_of_find h.noNul hlast hn (h.find_eq hc)
    (hc.get?_place.trans h.get?_put_place) (h.find_eraseBelow hc)]
  show ((d.eraseBelow place).erase place).get? q = _
  rw [Disk.get?_erase_eraseBelow d q h.ne_nil]
  -- at the place and below it nothing stood before; elsewhere nothing was changed
  by_cases hq : place <+: q
  · rw [if_pos hq]
    obtain ⟨rest, rfl⟩ := hq
    exact (h.free rest).symm
  · rw [if_neg hq, hc.outside q, h.get?_put, if_neg]
    · rintro rfl
      exact hq (List.prefix_refl _)
    · rintro m rest rfl
      exact hq (List.prefix_append _ _)

end Site

/-! ## Names for workspaces -/

namespace Workspace

/-- The name of a workspace is the stem and the digits of its number. -/
theorem toList_numbered (n : Nat) :
    (defaultStem ++ toString n).toList = defaultStem.toList ++ Nat.toDigits 10 n := by
  rw [String.toList_append]
  exact congrArg _ Nat.toList_repr

/-- A numbered name is a name that an entry can have. -/
theorem isFileName_numbered (n : Nat) : Path.IsFileName (defaultStem ++ toString n) := by
  have hne : ∀ s : String, s.toList.head? ≠ some 'a' → defaultStem ++ toString n ≠ s := by
    rintro s hs rfl
    rw [toList_numbered] at hs
    exact hs rfl
  refine ⟨?_, hne ".." (by decide), ?_⟩
  · rw [Path.isName, Bool.and_eq_true, bne_iff_ne, bne_iff_ne]
    exact ⟨hne "" (by decide), hne "." (by decide)⟩
  · rw [toList_numbered, List.mem_append]
    rintro (hslash | hslash)
    · exact absurd hslash (by decide)
    · exact absurd (Nat.isDigit_of_mem_toDigits (by decide) (by decide) hslash) (by decide)

/-- The path of a workspace ends in its numbered name. -/
theorem names_numbered (dir : Path) (n : Nat) :
    (numbered dir n).names = (Path.ofString dir.text).names ++ [defaultStem ++ toString n] := by
  have hfile := isFileName_numbered n
  have hanchor : Path.anchorOf (defaultStem ++ toString n) = .here := by
    unfold Path.anchorOf
    rw [toList_numbered]
    rfl
  -- the numbered name has no slash, so it is the last piece of the text
  have hsplit : Path.splitSlashes (dir.text ++ "/" ++ (defaultStem ++ toString n))
      = Path.splitSlashes dir.text ++ [defaultStem ++ toString n] := by
    have htoList : (dir.text ++ "/" ++ (defaultStem ++ toString n)).toList
        = dir.text.toList ++ '/' :: (defaultStem ++ toString n).toList := by
      simp [String.toList_append]
    unfold Path.splitSlashes
    rw [htoList, Text.fields_append _ rfl hfile.isSlash_eq, List.map_append, List.map_singleton,
      String.ofList_toList]
  unfold numbered nameText
  rw [if_pos hanchor]
  show (Path.splitSlashes _).filter Path.isName = _
  rw [hsplit, List.filter_append, List.filter_cons_of_pos hfile.isName]
  rfl

end Workspace

/-- A workspace that could be made stands at a site, if the directories for it are
    given without `..`. -/
theorem Site.of_create {d : Disk} {cwd dir p : Path} {place : Place} {n : Nat} (hd : d.Closed)
    (hcwd : ".." ∉ cwd.names) (hdir : ".." ∉ (Path.ofString dir.text).names)
    (hp : Workspace.numbered dir n = p)
    (hnul : p.holdsNul = false) (hfind : d.find cwd .entry p = .ok place)
    (hnone : d.get? place = none) : Site d cwd p place := by
  have hfile := Workspace.isFileName_numbered n
  have hnames := Workspace.names_numbered dir n
  rw [hp] at hnames
  refine ⟨hnul, ?_, ⟨_, by rw [hnames, List.getLast?_concat], ?_⟩, hfind, hd.get?_below hnone⟩
  · have hup : ".." ∉ p.names := by
      rw [hnames, List.mem_append, List.mem_singleton]
      rintro (h | h)
      · exact hdir h
      · exact hfile.notUp h.symm
    show ".." ∉ (cwd.append p).names
    unfold Path.append
    split
    · exact hup
    · rw [List.mem_append]
      exact fun h => h.elim hcwd hup
  · intro h
    exact absurd hfile.isName (by rw [h]; decide)

end RoundTrip
