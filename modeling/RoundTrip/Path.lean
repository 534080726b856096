import RoundTrip.Text.Blank

/-! # Paths

    A path is an anchor and a list of names.  Empty names and `.` vanish when a
    path is read, `..` is kept: nothing is looked up.  Exactly two leading
    slashes are an anchor of their own, three or more are the same as one.

    The order of paths compares them name by name and names by code point, so
    it differs from the order of their texts: `a/z` comes before `a b`. -/

namespace RoundTrip

/-- Where a path starts. -/
inductive Anchor where
  /-- The current directory. -/
  | here
  /-- The root directory. -/
  | root
  /-- The root directory, written with two slashes. -/
  | doubleRoot
  deriving DecidableEq, Repr

/-- The text of an anchor. -/
def Anchor.text : Anchor → String
  | .here => ""
  | .root => "/"
  | .doubleRoot => "//"

/-- A path by its anchor and its names. -/
structure Path where
  anchor : Anchor
  names : List String
  deriving DecidableEq, Repr

namespace Path

/-- The slash. -/
def isSlash (c : Char) : Bool := c == '/'

/-- The parts of a path's text between slashes. -/
def splitSlashes (s : String) : List String :=
  (Text.fields isSlash s.toList).map String.ofList

/-- Whether a part of a path's text names anything. -/
def isName (s : String) : Bool := s != "" && s != "."

/-- The anchor of a path's text. -/
def anchorOf (s : String) : Anchor :=
  match s.toList with
  | '/' :: '/' :: '/' :: _ => .root
  | '/' :: '/' :: _ => .doubleRoot
  | '/' :: _ => .root
  | _ => .here

/-- Reads a path. -/
def ofString (s : String) : Path :=
  ⟨anchorOf s, (splitSlashes s).filter isName⟩

/-- Names with slashes between them. -/
def joinNames (names : List String) : String :=
  String.ofList (['/'].intercalate (names.map String.toList))

/-- The text of a path.  The path without anchor and names is `.`. -/
def text (p : Path) : String :=
  if p.anchor = .here ∧ p.names = [] then "." else p.anchor.text ++ joinNames p.names

/-- Whether a path starts at the root. -/
def isAbsolute (p : Path) : Bool := p.anchor != .here

/-- The path `q` taken from `p`: `q` itself if it is absolute. -/
def append (p q : Path) : Path :=
  if q.isAbsolute then q else ⟨p.anchor, p.names ++ q.names⟩

instance : HDiv Path Path Path := ⟨append⟩

/-- A path with one name added, or more if the text holds slashes. -/
instance : HDiv Path String Path := ⟨fun p s => p.append (ofString s)⟩

/-- The path that goes on from `p` by names. -/
def descend (p : Path) (names : List String) : Path := ⟨p.anchor, p.names ++ names⟩

/-- The last name, empty for a root and for `.`. -/
def name (p : Path) : String := p.names.getLast?.getD ""

/-- The path without its last name. -/
def parent (p : Path) : Path := ⟨p.anchor, p.names.dropLast⟩

/-- One step back along the text of a path that goes through no link.  Where a
    relative path has no name left to drop, the step is kept as `..`. -/
def stepBack (p : Path) : Path :=
  if p.anchor = .here ∧ p.names.getLast?.all (· == "..") then ⟨p.anchor, p.names ++ [".."]⟩
  else p.parent

/-- The end of the last name from its last dot on, unless that dot is its first
    or its last character. -/
def suffix (p : Path) : String :=
  let chars := p.name.toList
  let tail := (chars.reverse.takeWhile (· != '.')).reverse
  if tail.isEmpty || chars.length ≤ tail.length + 1 then "" else "." ++ String.ofList tail

/-- The parts that order paths: the anchor, if there is one, and the names. -/
def orderKey (p : Path) : List String :=
  (if p.isAbsolute then [p.anchor.text] else []) ++ p.names

/-- The strict order of paths. -/
def before (p q : Path) : Bool := p.orderKey < q.orderKey

/-- The names of a path from the root on, when relative paths start at `cwd`. -/
def absoluteNames (p cwd : Path) : List String := (cwd / p).names

/-- Takes `..` as the step back along the text: it removes the name before it,
    and nothing at the root. -/
def dropDotDots : (reversed : List String) → List String → List String
  | done, [] => done.reverse
  | done, n :: rest =>
      if n = ".." then dropDotDots done.tail rest else dropDotDots (n :: done) rest

/-- The absolute names of a path after lexical normalisation. -/
def normalNames (p cwd : Path) : List String := dropDotDots [] (p.absoluteNames cwd)

/-- The absolute path after lexical normalisation. -/
def normalize (p cwd : Path) : Path := ⟨(cwd / p).anchor, p.normalNames cwd⟩

/-- Whether a path holds the character that no file name can hold. -/
def holdsNul (p : Path) : Bool := p.names.any fun n => n.toList.contains '\x00'

end Path

end RoundTrip
