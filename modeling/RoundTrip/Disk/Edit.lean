import RoundTrip.Disk.Lookup
import RoundTrip.Step

/-! # Changing the disk

    An operation of one step either delivers the changed disk or says why it is
    refused, and then nothing is changed.  An operation of several steps is an
    `Edit`: what was changed before a refusal stays changed. -/

namespace RoundTrip

/-- Why a directory tree could not be removed. -/
inductive RemovalError where
  | path (e : PathError)
  /-- The path is a file. -/
  | file (path : Path)
  /-- The path is a link. -/
  | link
  deriving DecidableEq, Repr

/-- The text of a failed removal. -/
def RemovalError.message : RemovalError → String
  | .path e => e.message
  | .file p => Errno.notDirectory.text ++ ": PosixPath(" ++ Text.quoted p.text ++ ")"
  | .link => "Cannot call rmtree on a symbolic link"

namespace Disk

/-- Several changes in a row, up to the first that is refused. -/
abbrev Edit (α : Type) := Step PathError Disk α

/-- Names a refusal by the path that was asked for. -/
def refuse {α : Type} (p : Path) : Except Errno α → Except PathError α
  | .ok a => .ok a
  | .error e => .error (.refused e p)

/-- Refuses a path that no file name can match. -/
def checkNul (p : Path) : Except PathError Unit :=
  if p.holdsNul then .error .nul else .ok ()

/-- Makes one directory. -/
def makeDir (d : Disk) (cwd p : Path) : Except Errno Disk :=
  match d.find cwd .entry p with
  | .error e => .error e
  | .ok q => if (d.get? q).isSome then .error .alreadyExists else .ok (d.put q .dir)

/-- Makes one directory, and accepts one that is there already.  Where the one
    above it is missing, `onMissing` decides. -/
def enterDir (cwd p : Path) (onMissing : Edit Unit) : Edit Unit := fun d =>
  match d.makeDir cwd p with
  | .ok d => .ok () d
  | .error .noEntry => onMissing d
  | .error e =>
      match d.isDir cwd p with
      | .ok true => .ok () d
      | .ok false => .error (.refused e p) d
      | .error e => .error e d

/-- Makes a directory and those above it that are missing.  The names come last
    first. -/
def makeDirsFrom (cwd : Path) (anchor : Anchor) : (reversed : List String) → Edit Unit
  | [] => enterDir cwd ⟨anchor, []⟩ (throw (.refused .noEntry ⟨anchor, []⟩))
  | n :: up =>
      let p : Path := ⟨anchor, (n :: up).reverse⟩
      enterDir cwd p do
        -- first the one above, then this one again
        makeDirsFrom cwd anchor up
        enterDir cwd p (throw (.refused .noEntry p))

/-- Makes a directory and those above it that are missing. -/
def makeDirs (cwd p : Path) : Edit Unit := do
  Step.ofExcept id (checkNul p)
  makeDirsFrom cwd p.anchor p.names.reverse

/-- Writes a file, over the one that is there.  A link is written through. -/
def write (d : Disk) (cwd p : Path) (content : Bytes) : Except PathError Disk := do
  checkNul p
  refuse p do
    let q ← d.find cwd .newFile p
    match d.get? q with
    | some .dir => .error .isDirectory
    | _ => .ok (d.put q (.file content))

/-- Writes a file, after the directories above it that are missing. -/
def writeWithParents (cwd p : Path) (content : Bytes) : Edit Unit := do
  makeDirs cwd p.parent
  Step.attempt id (write · cwd p content)

/-- Removes a file or a link. -/
def unlink (d : Disk) (cwd p : Path) : Except PathError Disk := do
  checkNul p
  refuse p do
    let q ← d.find cwd .entry p
    match d.get? q with
    | none => .error .noEntry
    | some .dir => .error .isDirectory
    | some _ => .ok (d.erase q)

/-- Puts a link where nothing stands.  A target is refused before the path is
    looked up. -/
def putLink (d : Disk) (cwd p : Path) (target : String) : Except Errno Disk :=
  if target = "" then .error .noEntry
  else if textLimit < target.utf8ByteSize then .error .nameTooLong
  else
    match d.find cwd .entry p with
    | .error e => .error e
    | .ok q => if (d.get? q).isSome then .error .alreadyExists else .ok (d.put q (.link target))

/-- Makes a link. -/
def makeLink (d : Disk) (cwd p : Path) (target : String) : Except PathError Disk := do
  checkNul p
  if target.toList.contains '\x00' then .error .nul
  else
    match d.putLink cwd p target with
    | .ok d => .ok d
    | .error e => .error (.os ⟨e, [target, p.text]⟩)

/-- Reads a file. -/
def contentOf (d : Disk) (cwd p : Path) : Except PathError Bytes := do
  checkNul p
  refuse p do
    match ← d.status cwd .target p with
    | .file content => .ok content
    | _ => .error .isDirectory

/-- Removes whatever stands at a path, a directory with everything below it.
    Where nothing stands, nothing happens. -/
def discard (d : Disk) (cwd p : Path) : Except PathError Disk := do
  checkNul p
  match d.find cwd .entry p with
  | .ok q => .ok (d.eraseTree q)
  | .error _ => .ok d

/-- Removes an empty directory.  A path that ends in `.` or `..` names no entry
    that could be removed. -/
def removeDir (d : Disk) (cwd p : Path) : Except Errno Disk :=
  match p.names.getLast? with
  | none => .error .invalid
  | some n =>
      if n = ".." then
        match d.status cwd .target p.parent with
        | .ok _ => .error .notEmpty
        | .error e => .error e
      else
        match d.find cwd .entry p with
        | .error e => .error e
        | .ok q =>
            match d.get? q with
            | none => .error .noEntry
            | some .dir => if d.isEmptyAt q then .ok (d.erase q) else .error .notEmpty
            | some _ => .error .notDirectory

/-- Removes the directory at a place: first everything below it, then the
    directory itself, for which the path is looked up again.  Links are removed
    and not followed. -/
def removeTreeAt (cwd p : Path) (place : Place) : Step RemovalError Disk Unit := fun d =>
  match (d.eraseBelow place).removeDir cwd p with
  | .ok d => .ok () d
  | .error e => .error (.path (.refused e p)) (d.eraseBelow place)

/-- Removes a directory and everything below it. -/
def removeTree (cwd p : Path) : Step RemovalError Disk Unit := fun d =>
  match checkNul p with
  | .error e => .error (.path e) d
  | .ok () =>
      match d.find cwd .entry p with
      | .error e => .error (.path (.refused e p)) d
      | .ok q =>
          match d.get? q with
          | none => .error (.path (.refused .noEntry p)) d
          | some .dir => removeTreeAt cwd p q d
          | some (.file _) => .error (.file p) d
          | some (.link _) =>
              match d.status cwd .target p with
              | .error e => .error (.path (.refused e p)) d
              | .ok _ => .error .link d

end Disk

end RoundTrip
