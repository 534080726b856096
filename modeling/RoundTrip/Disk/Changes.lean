import RoundTrip.Disk.Basic

/-! # What changed on the disk

    Two disks are compared place by place.  A change names the place and what
    stands there now, or that nothing does. -/

namespace RoundTrip.Disk

/-- The text of a place. -/
def placeText (p : Place) : String := "/" ++ Path.joinNames p

/-- The places where two disks differ, ordered by text, with what stands there
    in the later one. -/
def changes (before after : Disk) : List (Place × Option Node) :=
  let gone := before.places.filter fun p => (after.get? p).isNone
  let differing := (after.places ++ gone).filter fun p => before.get? p ≠ after.get? p
  (differing.map fun p => (p, after.get? p)).mergeSort fun a b => placeText a.1 ≤ placeText b.1

end RoundTrip.Disk
