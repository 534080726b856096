import RoundTrip.Json.Reader
import RoundTrip.World.Basic

/-! # Scenarios

    A scenario is a world written as a document: the files below the root of the
    scenario, the environment, the clock and the script of the processes.  What
    a document leaves out has its default.

    A binary64 value is written as an object with its text, and octets that are
    no text as an object with their hexadecimal digits. -/

namespace RoundTrip.Scenario

/-- The directory that a scenario is about. -/
def root : Path := ⟨.root, ["WORLD"]⟩

/-- Where workspaces are made. -/
def tempDir : Path := root / "tmp"

/-- A number. -/
def number? : Json → Option Number
  | .num n => some n
  | .obj [("$float", .str s)] => (Number.readFloat? s).map .float
  | _ => none

/-- A whole number. -/
def integer? : Json → Option Int
  | .num (.int n) => some n
  | _ => none

/-- A text. -/
def text? : Json → Option String
  | .str s => some s
  | _ => none

/-- The items of a list. -/
def items : Json → List Json
  | .arr vs => vs
  | _ => []

/-- The fields of an object. -/
def fields : Json → List (String × Json)
  | .obj fs => fs
  | _ => []

/-- The texts of a list. -/
def texts (v : Json) : List String := (items v).filterMap text?

/-- A field, or a default in place of a missing one. -/
def fieldOr {α : Type} (v : Json) (key : String) (read : Json → Option α) (default : α) : α :=
  ((v.get? key).bind read).getD default

/-- The octets of hexadecimal digits. -/
def ofHex : List Char → Bytes
  | a :: b :: r =>
      match Json.hexValue? a, Json.hexValue? b with
      | some a, some b => UInt8.ofNat (16 * a + b) :: ofHex r
      | _, _ => ofHex r
  | _ => []

/-- Octets. -/
def bytes? : Json → Option Bytes
  | .str s => some (Text.encode s)
  | .obj [("hex", .str s)] => some (ofHex s.toList)
  | _ => none

/-- An effect of a process. -/
def effect? (v : Json) : Option Effect :=
  match items v with
  | [.str "write", .str p, content] => (bytes? content).map (.write (Path.ofString p))
  | [.str "mkdir", .str p] => some (.makeDir (Path.ofString p))
  | [.str "link", .str p, .str target] => some (.link (Path.ofString p) target)
  | [.str "rm", .str p] => some (.remove (Path.ofString p))
  | _ => none

/-- What a process does with files. -/
def fileUse? : Json → Option FileUse
  | .str "cat" => some .print
  | .str "cmp" => some .compare
  | _ => none

/-- What comes of killing a process. -/
def kill? : Json → Option Kill
  | .str "ok" => some .done
  | .str "gone" => some .gone
  | .str "denied" => some .denied
  | _ => none

/-- An entry of the script. -/
def process (v : Json) : Process where
  startError := (v.get? "os_error").bind text?
  effects := fieldOr v "effects" (fun es => some ((items es).filterMap effect?)) []
  fileUse := (v.get? "tool").bind fileUse?
  exitCode := fieldOr v "exit" integer? 0
  stdout := fieldOr v "stdout" bytes? []
  stderr := fieldOr v "stderr" bytes? []
  seconds := fieldOr v "seconds" number? (.int 0)
  kill := fieldOr v "kill" kill? .done

/-- The change that makes an entry of a file list. -/
def entryEffect? (entry : String × Json) : Option Effect :=
  match entry.2 with
  | .obj [("dir", _)] => some (.makeDir (Path.ofString entry.1))
  | .obj [("link", .str target)] => some (.link (Path.ofString entry.1) target)
  | v => (bytes? v).map (.write (Path.ofString entry.1))

/-- Makes an entry of a file list, if it can be made. -/
def makeEntry (d : Disk) (entry : String × Json) : Disk :=
  match entryEffect? entry with
  | some e => Step.endState (e.apply root d)
  | none => d

/-- The disk of a scenario.  The directory of workspaces is always there. -/
def disk (v : Json) : Disk :=
  (fieldOr v "files" (fun f => some (fields f)) []).foldl makeEntry
    (Step.endState (Disk.makeDirs root tempDir Disk.empty))

/-- The world of a scenario. -/
def world (v : Json) : World where
  disk := disk v
  cwd := root
  tempDir := tempDir
  unreadable :=
    (fieldOr v "unreadable" (fun u => some (texts u)) []).map fun p =>
      (Path.ofString p).normalize root
  environment :=
    (fieldOr v "env" (fun e => some (fields e)) []).filterMap fun (k, v) =>
      (text? v).map fun s => (k, s)
  clock := (fieldOr v "clock" number? (.int 0)).toFloat?.getD 0
  script := (fieldOr v "procs" (fun ps => some (items ps)) []).map process
  spawns := []
  workspaceCount := 0
  verbose := false
  stdout := ""
  stderr := ""

end RoundTrip.Scenario
