import RoundTrip.Json.Reader
import RoundTrip.Configuration.Coercion

/-! # The configuration

    Where the files of a test setup are, which of them are sources, and how the
    tools are called.  Each field has a default; the environment can set it, and
    an explicit value overrides the environment.

    `load` collects the raw values first, so a list in the environment that
    cannot be read is an error even where it would be overridden. -/

namespace RoundTrip

/-- The configuration of a run. -/
structure Configuration where
  repoRoot : Path
  /-- Where the compiler was built; if blank, below the root. -/
  buildDir : String
  /-- The compiler, seen from the build directory. -/
  compilerRelPath : String
  /-- The splitter; if blank, the one below the root. -/
  splitterPath : String
  /-- The words of the comparison tool. -/
  diffCommand : String
  testDirs : List String
  sourceSuffix : String
  excludedNames : List String
  /-- The indentation of documents. -/
  jsonIndent : Int
  /-- The time limit of each process; none if it is not positive. -/
  timeoutSeconds : Float
  deriving DecidableEq

namespace Configuration

/-- The directory with the compiler in it. -/
def buildPath (s : Configuration) : Path :=
  if Text.trim s.buildDir = "" then s.repoRoot / "build" else Path.ofString (Text.trim s.buildDir)

/-- The compiler. -/
def compilerPath (s : Configuration) : Path := s.buildPath / s.compilerRelPath

/-- The splitter. -/
def splitter (s : Configuration) : Path :=
  if Text.trim s.splitterPath = "" then s.repoRoot / "scripts" / "splitSources.py"
  else Path.ofString (Text.trim s.splitterPath)

/-- The directories to search for sources. -/
def testRoots (s : Configuration) : List Path := s.testDirs.map fun (d : String) => s.repoRoot / d

/-- The time limit of each process. -/
def limit (s : Configuration) : Option Number :=
  if 0 < s.timeoutSeconds then some (.float s.timeoutSeconds) else none

/-- What the names of environment variables start with, in lower case. -/
def variableStem : String := "solidity_"

/-- The text of a field in the environment.  Names are compared without regard
    to the case of ASCII letters, for the names of fields hold no others, and of
    several the last one counts. -/
def textIn? (environment : List (String × String)) (f : Field) : Option String :=
  (environment.reverse.find? fun e => e.1.map Char.toLower = variableStem ++ f.name).map (·.2)

/-- How deep the values of a list in the environment may be nested. -/
def levelLimit : Nat := 980

/-- The raw value of a field in the environment.  A list is written as a
    document, in which `null` means that the field is not set. -/
def fromEnvironment (environment : List (String × String)) (f : Field) :
    Except LoadError (Option Json) :=
  match textIn? environment f with
  | none => .ok none
  | some s =>
      if f.isList then
        match Json.parseWithin levelLimit s with
        | .error .malformed => .error (.unreadable f)
        | .error (.tooDeep kind) => .error (.tooDeep kind)
        | .ok .null => .ok none
        | .ok v => .ok (some v)
      else .ok (some (.str s))

/-- The raw value of a field that is given explicitly. -/
def explicit? (overrides : List (String × Json)) (f : Field) : Option Json :=
  (Json.obj overrides).get? f.name

/-- The raw value of a field: the explicit one before the one in the
    environment. -/
def raw (environment : List (String × String)) (overrides : List (String × Json)) (f : Field) :
    Option Json :=
  (explicit? overrides f).or ((fromEnvironment environment f).toOption.join)

/-- The value of a field that holds one value. -/
def single {α : Type} (value? : Field → Option Json) (f : Field) (coerce : Json → Except Misfit α)
    (default : α) : Checked α :=
  match value? f with
  | none => .ok default
  | some v => Checked.ofExcept f none (coerce v)

/-- The value of a field that holds a list. -/
def list (value? : Field → Option Json) (f : Field) (default : List String) :
    Checked (List String) :=
  match value? f with
  | none => .ok default
  | some v => texts f v

/-- The directories that are searched by default. -/
def defaultTestDirs : List String := ["test/libsolidity/syntaxTests", "test/libsolidity/ASTJSON"]

/-- The names that are excluded by default: a file whose own name is malformed
    on purpose, so that giving it to a tool would mean nothing. -/
def defaultExcluded : List String := ["boost_filesystem_bug.sol"]

/-- The configuration of raw values. -/
def ofRaw (cwd : Path) (value? : Field → Option Json) : Checked Configuration :=
  Configuration.mk <$> single value? .repoRoot path cwd
    <*> single value? .buildDir text ""
    <*> single value? .compilerRelPath text "solc/solc"
    <*> single value? .splitterPath text ""
    <*> single value? .diffCommand text "diff --unified"
    <*> list value? .testDirs defaultTestDirs
    <*> single value? .sourceSuffix text ".sol"
    <*> list value? .excludedNames defaultExcluded
    <*> single value? .jsonIndent integer 4
    <*> single value? .timeoutSeconds number 300

/-- Reads the configuration. -/
def load (environment : List (String × String)) (overrides : List (String × Json)) (cwd : Path) :
    Except LoadError Configuration := do
  -- a list that cannot be read is an error even where it is overridden
  let _ ← fromEnvironment environment .testDirs
  let _ ← fromEnvironment environment .excludedNames
  match ofRaw cwd (raw environment overrides) with
  | .ok s => .ok s
  | .refused values => .error (.refused values)

end Configuration

end RoundTrip
