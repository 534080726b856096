import RoundTrip.Json.Printer
import RoundTrip.Text.Utf8
import RoundTrip.World.Basic

/-! # Workspaces and files

    Each case has a directory of its own, which is made under a name that was
    free and removed at the end.  A removal that fails is reported on the console
    and ends nothing.

    Files are written with the directories above them, removed if they are
    there, and never written over silently: `refuseExisting` guards a name. -/

namespace RoundTrip.Workspace

/-- How many names are tried before a workspace is given up. -/
def nameTries : Nat := 10000

/-- What the names of workspaces start with. -/
def defaultStem : String := "ast-import-"

/-- The text of a name that is tried.  It is taken as it is, also in errors; one
    that starts with a slash is not below the directory of workspaces. -/
def nameText (dir : Path) (name : String) : String :=
  if Path.anchorOf name = .here then dir.text ++ "/" ++ name else name

/-- Makes a new directory under the next name, unless that is taken. -/
def tryNext (stem : String) : Action World (Option Path) := do
  let w ← get
  let text := nameText w.tempDir (stem ++ toString w.workspaceCount)
  let p := Path.ofString text
  -- the number is used up even if the name is taken
  set { w with workspaceCount := w.workspaceCount + 1 }
  if p.holdsNul then throw (.path .nul)
  else if Disk.textLimit < text.utf8ByteSize then throw (.path (.os ⟨.nameTooLong, [text]⟩))
  else
    match w.disk.makeDir w.cwd p with
    | .ok d =>
        modify fun w => { w with disk := d }
        pure (some p)
    | .error .alreadyExists => pure none
    | .error e => throw (.path (.os ⟨e, [text]⟩))

/-- Makes a new directory under the first free name. -/
def create (stem : String) : (tries : Nat) → Action World Path
  | 0 => throw .noWorkspaceName
  | tries + 1 => do
      match ← tryNext stem with
      | some p => pure p
      | none => create stem tries

/-- What is printed about a directory that could not be removed. -/
def removalWarning (p : Path) (e : RemovalError) : String :=
  "[ast-import] warn: remove workspace failed path=" ++ p.text ++ ": " ++ e.message

/-- Removes a directory and all that is in it.  One that is gone already is
    accepted; any other failure is reported on the console. -/
def remove (p : Path) : Action World Unit := do
  let w ← get
  match Disk.removeTree w.cwd p w.disk with
  | .ok () d => set { w with disk := d }
  | .error e d =>
      -- what was removed before the failure stays removed
      set { w with disk := d }
      match e with
      | .path .nul => throw (.path .nul)
      | .path (.os ⟨.noEntry, _⟩) => pure ()
      | e => World.printLine (removalWarning p e)

/-- Makes a workspace. -/
def enter (stem : String) : Action World Path := do
  let p ← create stem nameTries
  World.log .workspace ("workspace created: " ++ p.text)
  pure p

/-- Removes a workspace. -/
def leave (p : Path) : Action World Unit := do
  remove p
  World.log .workspace ("workspace removed: " ++ p.text)

/-- Removes the workspaces that nobody has left, in the order given. -/
def leaveAll (dirs : List Path) : Action World Unit := dirs.forM leave

/-- Ends in a defect if a path leads to anything. -/
def refuseExisting (p : Path) : Action World Unit := do
  let w ← get
  let isThere ← Step.ofExcept Fault.path (w.disk.pathExists w.cwd p)
  if isThere then throw (.defect (.artifactExists p.name)) else pure ()

/-- Removes a file if it is there. -/
def removeIfPresent (p : Path) : Action World Unit := do
  let w ← get
  match w.disk.unlink w.cwd p with
  | .ok d => set { w with disk := d }
  | .error (.os ⟨.noEntry, _⟩) => pure ()
  | .error e => throw (.path e)

/-- Removes the artifacts that are in a directory. -/
def clearArtifacts (dir : Path) : Action World Unit :=
  Artifact.all.forM fun a => removeIfPresent (a.path dir)

/-- Writes a file.  A refusal of the disk is a defect. -/
def store (p : Path) (content : Bytes) : Action World Unit := fun w =>
  Step.within
    (fun
      | .os e => .defect (.notWritten p e)
      | e => .path e)
    World.disk (fun w d => { w with disk := d }) (Disk.writeWithParents w.cwd p content) w

/-- Writes a document, followed by a line end. -/
def storeDocument (p : Path) (document : Json) : Action World Unit :=
  World.edit fun cwd =>
    Disk.writeWithParents cwd p (Text.encode (document.print ++ "\n"))

end RoundTrip.Workspace
