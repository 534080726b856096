import RoundTrip.Path
import RoundTrip.Text.Utf8

/-! # The disk

    A disk is a finite tree, kept as the list of its entries.  An entry stands
    at a *place*, the names from the root on; the root itself is always there.
    Nothing is followed at this level: a link is an entry like any other.

    The one view of a disk is `get?`.  Each operation is pinned down by what it
    does to that view. -/

namespace RoundTrip

/-- A place on the disk: names from the root on, none of them `.` or `..`. -/
abbrev Place := List String

/-- What stands at a place. -/
inductive Node where
  | file (content : Bytes)
  | dir
  | link (target : String)
  deriving DecidableEq

/-- A file system. -/
structure Disk where
  entries : List (Place × Node)
  deriving DecidableEq

namespace Disk

/-- The disk with nothing but its root. -/
def empty : Disk := ⟨[]⟩

/-- The node of the first entry at a place. -/
def find? (p : Place) : List (Place × Node) → Option Node
  | [] => none
  | e :: es => if e.1 = p then some e.2 else find? p es

/-- What stands at a place. -/
def get? (d : Disk) (p : Place) : Option Node :=
  if p = [] then some .dir else find? p d.entries

/-- Replaces the node of an entry, and leaves all else as it is. -/
def replace (p : Place) (n : Node) : List (Place × Node) → List (Place × Node)
  | [] => []
  | e :: es => if e.1 = p then (p, n) :: es else e :: replace p n es

/-- Puts a node at a place: over what stands there, or as the last entry. -/
def put (d : Disk) (p : Place) (n : Node) : Disk :=
  if p = [] then d
  else if (find? p d.entries).isSome then ⟨replace p n d.entries⟩
  else ⟨d.entries ++ [(p, n)]⟩

/-- Removes what stands at a place. -/
def erase (d : Disk) (p : Place) : Disk :=
  ⟨d.entries.filter fun e => e.1 ≠ p⟩

/-- Removes what stands at a place and everything below it. -/
def eraseTree (d : Disk) (p : Place) : Disk :=
  ⟨d.entries.filter fun e => !p.isPrefixOf e.1⟩

/-- Removes everything below a place, but not what stands there. -/
def eraseBelow (d : Disk) (p : Place) : Disk :=
  ⟨d.entries.filter fun e => e.1 = p || !p.isPrefixOf e.1⟩

/-- The places of a disk, the root apart. -/
def places (d : Disk) : List Place := d.entries.map (·.1)

/-- Whether nothing stands below a place. -/
def isEmptyAt (d : Disk) (p : Place) : Bool :=
  d.places.all fun q => q = p || !p.isPrefixOf q

/-- The number of links. -/
def linkCount (d : Disk) : Nat :=
  d.entries.countP fun e => match e.2 with
    | .link _ => true
    | _ => false

/-! ## What the operations do to the view -/

theorem find?_replace (p q : Place) (n : Node) (es : List (Place × Node)) :
    find? q (replace p n es)
      = if q = p then (if (find? p es).isSome then some n else none) else find? q es := by
  induction es with
  | nil => simp [replace, find?]
  | cons e es ih =>
      rw [replace]
      by_cases hr : e.1 = p
      · rw [if_pos hr]
        by_cases hq : q = p
        · subst hq; simp [find?, hr]
        · have : ¬ p = q := fun h => hq h.symm
          simp [find?, hr, hq, this]
      · rw [if_neg hr, find?, ih]
        by_cases hq : q = p
        · subst hq; simp [find?, hr]
        · simp [find?, hq]

theorem find?_append_single (p q : Place) (n : Node) (es : List (Place × Node))
    (h : find? p es = none) :
    find? q (es ++ [(p, n)]) = if q = p then some n else find? q es := by
  induction es with
  | nil => simp [find?, eq_comm]
  | cons e es ih =>
      by_cases hp : e.1 = p
      · simp [find?, hp] at h
      · have h' : find? p es = none := by simpa [find?, hp] using h
        rw [List.cons_append, find?, ih h']
        by_cases hq : q = p
        · subst hq; simp [hp]
        · simp [find?, hq]

/-- A node that was put is found, and every other place is as it was. -/
theorem get?_put (d : Disk) (p q : Place) (n : Node) (hp : p ≠ []) :
    (d.put p n).get? q = if q = p then some n else d.get? q := by
  unfold put get?
  rw [if_neg hp]
  by_cases hs : (find? p d.entries).isSome
  · rw [if_pos hs]
    by_cases hq : q = []
    · subst hq; simp [Ne.symm hp]
    · simp [hq, find?_replace, hs]
  · rw [if_neg hs]
    have hn : find? p d.entries = none := by simpa using hs
    by_cases hq : q = []
    · subst hq; simp [Ne.symm hp]
    · simp [hq, find?_append_single p q n d.entries hn]

theorem find?_filter (f : Place → Bool) (q : Place) (es : List (Place × Node)) :
    find? q (es.filter fun e => f e.1) = if f q then find? q es else none := by
  induction es with
  | nil => simp [find?]
  | cons e es ih =>
      rw [List.filter_cons]
      by_cases he : f e.1
      · rw [if_pos he, find?, find?, ih]
        by_cases hq : e.1 = q
        · subst hq; simp [he]
        · simp [hq]
      · rw [if_neg he, ih, find?]
        by_cases hq : e.1 = q
        · subst hq; simp [he]
        · simp [hq]

/-- An erased place is empty, and every other place is as it was. -/
theorem get?_erase (d : Disk) (p q : Place) (hq : q ≠ []) :
    (d.erase p).get? q = if q = p then none else d.get? q := by
  unfold erase get?
  rw [if_neg hq, if_neg hq, find?_filter (fun r => decide (r ≠ p))]
  by_cases h : q = p <;> simp [h]

/-- An erased tree is gone, and every place outside it is as it was. -/
theorem get?_eraseTree (d : Disk) (p q : Place) (hq : q ≠ []) :
    (d.eraseTree p).get? q = if p.isPrefixOf q then none else d.get? q := by
  unfold eraseTree get?
  rw [if_neg hq, if_neg hq, find?_filter (fun r => !p.isPrefixOf r)]
  by_cases h : p.isPrefixOf q <;> simp [h]

/-- Below the place nothing is left, and every other place is as it was. -/
theorem get?_eraseBelow (d : Disk) (p q : Place) (hq : q ≠ []) :
    (d.eraseBelow p).get? q = if q ≠ p ∧ p.isPrefixOf q then none else d.get? q := by
  unfold eraseBelow get?
  rw [if_neg hq, if_neg hq, find?_filter (fun r => decide (r = p) || !p.isPrefixOf r)]
  by_cases hp : q = p
  · simp [hp]
  · by_cases h : p.isPrefixOf q <;> simp [h, hp]

end Disk

end RoundTrip
