import RoundTrip.Disk.Lookup

/-! # Walking a directory

    A walk lists what stands below a directory and is no directory itself.  It
    does not go through links: a link to a directory counts as a directory and
    is left alone, and every other link is listed.

    The walk asks for what it meets by a path, which grows by one name with each
    directory.  A directory whose path is too long cannot be listed, and what
    stands below it is left out without a word.  A link that cannot be followed
    by its path is listed, whatever it leads to. -/

namespace RoundTrip.Disk

/-- The current directory, written as a name. -/
def dot : Path := ⟨.here, ["."]⟩

/-- The path that a walk starts with: the current directory is written as a name. -/
def walkStart (root : Path) : Path := if root = ⟨.here, []⟩ then dot else root

/-- Whether the path of a directory is short enough for the directory to be listed. -/
def canList (p : Path) : Bool := p.text.utf8ByteSize ≤ textLimit

/-- Whether a walk takes the entry at a place for a directory: a link is one if it
    can be followed to one by its path. -/
def countsAsDir (d : Disk) (cwd p : Path) (q : Place) : Bool :=
  match d.get? q with
  | some .dir => true
  | some (.link _) =>
      match d.status cwd .target p with
      | .ok node => node == .dir
      | .error _ => false
  | _ => false

/-- The names from a directory to each entry below it that is no directory.  The
    directory stands at `place`, and `p` is the path that the walk starts with. -/
def walk (d : Disk) (cwd p : Path) (place : Place) : List (List String) :=
  d.places.filterMap fun q =>
    let names := q.drop place.length
    if place.isPrefixOf q && q ≠ place && canList (p.descend names.dropLast)
        && !d.countsAsDir cwd (p.descend names) q then some names else none

/-- What a walk lists, name for name. -/
theorem mem_walk {d : Disk} {cwd p : Path} {place : Place} {names : List String} :
    names ∈ d.walk cwd p place
      ↔ place ++ names ∈ d.places ∧ names ≠ [] ∧ canList (p.descend names.dropLast) = true
        ∧ d.countsAsDir cwd (p.descend names) (place ++ names) = false := by
  unfold walk
  rw [List.mem_filterMap]
  constructor
  · rintro ⟨q, hq, h⟩
    dsimp only at h
    split at h
    · rename_i hbelow
      cases h
      simp only [Bool.and_eq_true, List.isPrefixOf_iff_prefix, decide_eq_true_eq, ne_eq,
        Bool.not_eq_true'] at hbelow
      obtain ⟨⟨⟨⟨rest, rfl⟩, hne⟩, hlisted⟩, hdir⟩ := hbelow
      rw [List.drop_left] at hlisted hdir ⊢
      exact ⟨hq, fun hnil => hne (by rw [hnil, List.append_nil]), hlisted, hdir⟩
    · cases h
  · rintro ⟨hmem, hne, hlisted, hdir⟩
    refine ⟨_, hmem, ?_⟩
    rw [List.drop_left]
    simp [hne, hlisted, hdir]

end RoundTrip.Disk
