import RoundTrip.Disk.Lookup

/-! # The artifacts of a case

    The verification of a case writes three files into its directory: the
    document that was exported, the document that was exported after the import,
    and what the compiler said during the import.  Their names are fixed, so a
    file that already has one of them is in the way. -/

namespace RoundTrip

/-- A file that the verification of a case writes. -/
inductive Artifact where
  /-- The document before the import. -/
  | expected
  /-- The document after the import. -/
  | obtained
  /-- The error output of the import. -/
  | messages
  deriving DecidableEq, Repr

namespace Artifact

/-- The name of the file. -/
def name : Artifact → String
  | .expected => "expected.json"
  | .obtained => "obtained.json"
  | .messages => "stderr.txt"

/-- All artifacts, in the order in which they are written. -/
def all : List Artifact := [.expected, .obtained, .messages]

/-- Where an artifact stands in a directory. -/
def path (a : Artifact) (dir : Path) : Path := dir / a.name

/-- What stands under the names of the artifacts in a directory. -/
def present (d : Disk) (cwd dir : Path) : List (Artifact × Node) :=
  all.filterMap fun a =>
    match d.status cwd .entry (a.path dir) with
    | .ok n => some (a, n)
    | .error _ => none

end Artifact

end RoundTrip
