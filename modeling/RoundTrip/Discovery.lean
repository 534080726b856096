import RoundTrip.Disk.Resolve
import RoundTrip.Disk.Walk
import RoundTrip.World.Basic

/-! # Finding the sources

    The sources of a run are the files below its roots whose names end with a
    suffix and are not excluded.  The name that counts is the one the walk
    finds; the path that is delivered is the resolved one.  What the walk cannot
    reach for the length of its path is no source, and nothing is said of it.

    Sources come in the order of paths and each only once.  A root that is no
    directory, or to which access is denied, is skipped with a warning; if no
    root is left, the setup is wrong. -/

namespace RoundTrip.Discovery

/-- Which names are sources. -/
structure Criteria where
  suffix : String
  excluded : List String
  deriving DecidableEq, Repr

/-- Whether a file of this name is a source. -/
def Criteria.accepts (c : Criteria) (name : String) : Bool :=
  c.suffix.toList.isSuffixOf name.toList && !c.excluded.contains name

/-- The resolved paths of the sources below a root. -/
def sourcesBelow (w : World) (c : Criteria) (root : Path) : Except PathError (List Path) := do
  Disk.checkNul root
  match w.disk.find w.cwd .target root with
  | .error _ => .ok []
  | .ok place =>
      let walked := w.disk.walk w.cwd (Disk.walkStart root) place
      let found := walked.filter fun names => c.accepts (names.getLast?.getD "")
      found.mapM fun names => w.disk.resolve w.cwd (root.descend names)

/-- Whether a root can be searched. -/
def isReadable (w : World) (root : Path) : Except PathError Bool :=
  (w.disk.isDir w.cwd root).map (· && !w.unreadable.contains (root.normalize w.cwd))

/-- Inserts a path into a rising list of paths, unless it is there already. -/
def insert (p : Path) : List Path → List Path
  | [] => [p]
  | q :: rest =>
      if p = q then q :: rest
      else if p.before q then p :: q :: rest
      else q :: insert p rest

/-- Paths in rising order, each once. -/
def inOrder (paths : List Path) : List Path := paths.foldr insert []

/-- Warns of a root that is skipped. -/
def warnUnreadable (root : Path) : Action World Unit :=
  World.printLine ("[ast-import] warn: test directory not readable: " ++ root.text)

/-- The roots that can be searched, with a warning of each of the others. -/
def readableRoots : List Path → Action World (List Path)
  | [] => pure []
  | root :: rest => do
      let readable ← Step.ofExcept Fault.path (isReadable (← get) root)
      if readable then
        let others ← readableRoots rest
        pure (root :: others)
      else
        warnUnreadable root
        readableRoots rest

/-- Finds the sources below roots. -/
def findSources (roots : List Path) (c : Criteria) : Action World (List Path) := do
  let readable ← readableRoots roots
  if readable.isEmpty then throw (.setup (.noReadableRoot roots))
  else
    let found ← Step.ofExcept Fault.path (readable.mapM (sourcesBelow (← get) c))
    let sources := inOrder found.flatten
    World.log .discovery
      ("discovered " ++ toString sources.length ++ " sources under " ++ toString readable.length
        ++ " roots")
    pure sources

end RoundTrip.Discovery
