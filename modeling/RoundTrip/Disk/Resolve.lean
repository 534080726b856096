import RoundTrip.Disk.Edit

/-! # Resolved paths

    A resolved path is absolute and goes through no link.  What does not exist
    is kept as it is, and `..` is taken after the links before it.

    Resolution follows the text from left to right and keeps the path it has
    reached, which stays relative as long as no absolute target is met.  Each
    link is resolved once for each path that it is reached by: `Seen` keeps
    where it leads, and before that is known keeps that it is under way.  A link
    that is met while it is under way leads back to itself; resolution stops
    there, and the text that is left is put behind the path reached.  Text that
    starts with a slash starts over.

    The recursion is on the parts of the text, and within it on a depth that no
    chain of different links can exceed. -/

namespace RoundTrip.Disk

/-- The links met so far, the latest first, with where they lead. -/
abbrev Seen := List (Path × Option Path)

/-- What is known of a link. -/
def Seen.find? (p : Path) : Seen → Option (Option Path)
  | [] => none
  | e :: es => if e.1 = p then some e.2 else find? p es

/-- How resolution ended. -/
inductive Ending where
  | complete
  /-- At a link that leads back to itself. -/
  | loop
  /-- At a name that no file can have. -/
  | nul
  deriving DecidableEq, Repr

/-- How far resolution has got. -/
structure Progress where
  seen : Seen
  /-- The path reached, with the text that is left behind it. -/
  path : Path
  ending : Ending

/-- The target of the link that stands at a path, if there is one. -/
def linkAt? (d : Disk) (cwd p : Path) : Option String :=
  match d.status cwd .entry p with
  | .ok (.link target) => some target
  | _ => none

/-- The path that text starts from: `here`, unless the text is absolute. -/
def startOf (here : Path) (text : String) : Path :=
  if Path.anchorOf text = .here then here else ⟨.root, []⟩

/-- Resolves the parts of a text from a path that goes through no link, where
    `onLink` resolves the target of a link. -/
def resolveWith (onLink : Seen → Path → String → Progress) (d : Disk) (cwd : Path) :
    Seen → Path → List String → Progress
  | seen, here, [] => ⟨seen, here, .complete⟩
  | seen, here, n :: rest =>
      if !Path.isName n then resolveWith onLink d cwd seen here rest
      else if n = ".." then resolveWith onLink d cwd seen here.stepBack rest
      else
        let p : Path := ⟨here.anchor, here.names ++ [n]⟩
        if p.holdsNul then ⟨seen, p, .nul⟩
        else
          match d.linkAt? cwd p with
          | none => resolveWith onLink d cwd seen p rest
          | some target =>
              match seen.find? p with
              | some (some q) => resolveWith onLink d cwd seen q rest
              -- the link is under way, so it leads back to itself
              | some none => ⟨seen, p / Path.joinNames rest, .loop⟩
              | none =>
                  let r := onLink ((p, none) :: seen) here target
                  if r.ending = .complete then
                    resolveWith onLink d cwd ((p, some r.path) :: r.seen) r.path rest
                  else ⟨r.seen, r.path / Path.joinNames rest, r.ending⟩

/-- Resolves a text from a path that goes through no link, through chains of at
    most `depth` links. -/
def resolveText (d : Disk) (cwd : Path) : (depth : Nat) → Seen → Path → String → Progress
  | 0, seen, here, _ => ⟨seen, here, .loop⟩
  | depth + 1, seen, here, text =>
      resolveWith (resolveText d cwd depth) d cwd seen (startOf here text) (Path.splitSlashes text)

/-- How many links a chain of different ones can have.  A link is reached by its
    absolute path, or by a relative path that goes some way up first. -/
def chainLimit (d : Disk) (cwd : Path) : Nat := d.linkCount * (cwd.names.length + 2)

/-- The resolved form of a path.  If resolution stopped at a link that leads back
    to itself, the path that was put together is accepted as long as no such link
    is met on it. -/
def resolve (d : Disk) (cwd p : Path) : Except PathError Path := do
  let r := d.resolveText cwd (d.chainLimit cwd + 1) [] ⟨.here, []⟩ p.text
  if r.ending = .nul then .error .nul
  else
    let q := r.path.normalize cwd
    checkNul q
    match d.find cwd .target q with
    | .error .tooManyLinks => .error (.linkLoop q)
    | _ => .ok q

end RoundTrip.Disk
