import RoundTrip.Disk.Basic
import RoundTrip.Text.Quoted

/-! # Looking names up

    `locate` goes from the root along a list of names and follows the links it
    meets, at most `linkLimit` of them.  The last name may have nothing behind
    it; every name before it must be a directory.  A name that is too long is
    refused where it would be looked up, and a text that is too long before
    anything is.

    The recursion is on the names, and within it on the number of links that may
    still be followed: a link is handed to the same function with one link
    fewer. -/

namespace RoundTrip

/-- Why an operation on the disk is refused. -/
inductive Errno where
  | noEntry
  | alreadyExists
  | notDirectory
  | isDirectory
  /-- The path names a directory in a way that cannot be undone. -/
  | invalid
  | nameTooLong
  | notEmpty
  | tooManyLinks
  deriving DecidableEq, Repr

/-- The number of a cause. -/
def Errno.number : Errno → Nat
  | .noEntry => 2
  | .alreadyExists => 17
  | .notDirectory => 20
  | .isDirectory => 21
  | .invalid => 22
  | .nameTooLong => 36
  | .notEmpty => 39
  | .tooManyLinks => 40

/-- The words for a cause. -/
def Errno.words : Errno → String
  | .noEntry => "No such file or directory"
  | .alreadyExists => "File exists"
  | .notDirectory => "Not a directory"
  | .isDirectory => "Is a directory"
  | .invalid => "Invalid argument"
  | .nameTooLong => "File name too long"
  | .notEmpty => "Directory not empty"
  | .tooManyLinks => "Too many levels of symbolic links"

/-- The number and the words for a cause. -/
def Errno.text (e : Errno) : String :=
  "[Errno " ++ toString e.number ++ "] " ++ e.words

/-- Whether a cause only says that a path leads to nothing. -/
def Errno.saysAbsent : Errno → Bool
  | .noEntry | .notDirectory | .tooManyLinks => true
  | _ => false

/-- A refusal. -/
structure OsError where
  cause : Errno
  /-- The texts that were asked for: a path, or the target of a link and its path. -/
  paths : List String
  deriving DecidableEq, Repr

/-- The text of a refusal. -/
def OsError.message (e : OsError) : String :=
  e.cause.text ++ ": " ++ String.intercalate " -> " (e.paths.map Text.quoted)

/-- Why an operation on a path fails. -/
inductive PathError where
  | os (e : OsError)
  /-- The path holds the character that no file name can hold. -/
  | nul
  /-- A resolved path ends in links that lead back to themselves. -/
  | linkLoop (path : Path)
  deriving DecidableEq, Repr

/-- A refusal of an operation on a path. -/
def PathError.refused (cause : Errno) (p : Path) : PathError := .os ⟨cause, [p.text]⟩

/-- The text of a failure. -/
def PathError.message : PathError → String
  | .os e => e.message
  | .nul => "embedded null byte"
  | .linkLoop p => "Symlink loop from " ++ Text.quoted p.text

namespace Disk

/-- What a path is looked up for. -/
inductive Aim where
  /-- The entry itself, even if it is a link. -/
  | entry
  /-- What the path leads to. -/
  | target
  /-- A file that is to be written, so no slash may follow its name. -/
  | newFile
  deriving DecidableEq, Repr

/-- How many links one look-up may follow. -/
def linkLimit : Nat := 40

/-- The most octets that a name may have. -/
def nameLimit : Nat := 255

/-- The most octets that the text of a path may have. -/
def textLimit : Nat := 4095

/-- The place that a link's target starts from, when the link stands in
    `here`. -/
def targetStart (here : Place) (target : String) : Place :=
  if Path.anchorOf target = .here then here else []

/-- One look-up from a directory, where `onLink` looks up what is left when a
    link is met. -/
def locateWith (onLink : Place → List String → Except Errno Place) (d : Disk) (aim : Aim) :
    Place → List String → Except Errno Place
  | here, [] => .ok here
  | here, n :: rest =>
      match d.get? here with
      | some .dir =>
          if !Path.isName n then locateWith onLink d aim here rest
          else if n = ".." then locateWith onLink d aim here.dropLast rest
          else if aim = .newFile ∧ rest ≠ [] ∧ rest.all (· == "") then .error .isDirectory
          else if nameLimit < n.utf8ByteSize then .error .nameTooLong
          else
            match d.get? (here ++ [n]) with
            -- only the last name may have nothing behind it
            | none => if rest.isEmpty then .ok (here ++ [n]) else .error .noEntry
            | some (.link target) =>
                if rest.isEmpty && aim == .entry then .ok (here ++ [n])
                else onLink (targetStart here target) (Path.splitSlashes target ++ rest)
            | some _ => locateWith onLink d aim (here ++ [n]) rest
      | some _ => .error .notDirectory
      | none => .error .noEntry

/-- The place that names lead to, following at most `links` links. -/
def locate (d : Disk) (aim : Aim) : (links : Nat) → Place → List String → Except Errno Place
  | 0 => locateWith (fun _ _ => .error .tooManyLinks) d aim
  | links + 1 => locateWith (locate d aim links) d aim

/-- The place of a path. -/
def find (d : Disk) (cwd : Path) (aim : Aim) (p : Path) : Except Errno Place :=
  if textLimit < p.text.utf8ByteSize then .error .nameTooLong
  else d.locate aim linkLimit [] (p.absoluteNames cwd)

/-- The node that a path leads to. -/
def status (d : Disk) (cwd : Path) (aim : Aim) (p : Path) : Except Errno Node := do
  match d.get? (← d.find cwd aim p) with
  | some n => .ok n
  | none => .error .noEntry

/-- The node that a path leads to, if there is one.  Links are followed, so a link
    to nothing counts as absent. -/
def node? (d : Disk) (cwd p : Path) : Except PathError (Option Node) :=
  if p.holdsNul then .ok none
  else
    match d.status cwd .target p with
    | .ok n => .ok (some n)
    | .error e => if e.saysAbsent then .ok none else .error (.refused e p)

/-- Whether a path leads to anything. -/
def pathExists (d : Disk) (cwd p : Path) : Except PathError Bool :=
  (d.node? cwd p).map Option.isSome

/-- Whether a path leads to a directory. -/
def isDir (d : Disk) (cwd p : Path) : Except PathError Bool :=
  (d.node? cwd p).map (· == some .dir)

/-- Whether a path leads to a file. -/
def isFile (d : Disk) (cwd p : Path) : Except PathError Bool :=
  (d.node? cwd p).map fun
    | some (.file _) => true
    | _ => false

end Disk

end RoundTrip
