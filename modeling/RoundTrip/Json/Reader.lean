import RoundTrip.Json.Basic
import RoundTrip.Number.Literal

/-! # Reading documents

    Each reader takes the characters left and returns what it read with the
    characters after it.  The readers of values, items and fields call one
    another; every call takes one unit of fuel, and since no two calls in a row
    leave the characters as they are, twice as much fuel as there are characters
    is enough.

    Arrays and objects may be nested in one another to a given number of levels.
    Of several things that are wrong with a text the first one counts.

    Besides the standard grammar the reader knows the number names `NaN`,
    `Infinity` and `-Infinity`. -/

namespace RoundTrip.Json

/-- The characters that may stand between the tokens of a document. -/
def isSpace (c : Char) : Bool :=
  c == ' ' || c == '\t' || c == '\n' || c == '\r'

/-- The characters after the space in front. -/
def skipSpace (s : List Char) : List Char := s.dropWhile isSpace

/-- The value of one hexadecimal digit. -/
def hexValue? (c : Char) : Option Nat :=
  if '0' ≤ c ∧ c ≤ '9' then some (c.toNat - '0'.toNat)
  else if 'a' ≤ c ∧ c ≤ 'f' then some (c.toNat - 'a'.toNat + 10)
  else if 'A' ≤ c ∧ c ≤ 'F' then some (c.toNat - 'A'.toNat + 10)
  else none

/-- Four hexadecimal digits. -/
def hex4? : List Char → Option (Nat × List Char)
  | a :: b :: c :: d :: r => do
      let a ← hexValue? a
      let b ← hexValue? b
      let c ← hexValue? c
      let d ← hexValue? d
      some (((a * 16 + b) * 16 + c) * 16 + d, r)
  | _ => none

/-- The character of a one-letter escape. -/
def shortEscape? (c : Char) : Option Char :=
  if c = '"' ∨ c = '\\' ∨ c = '/' then some c
  else if c = 'n' then some '\n'
  else if c = 'r' then some '\r'
  else if c = 't' then some '\t'
  else if c = 'b' then some '\x08'
  else if c = 'f' then some '\x0c'
  else none

/-- The character of an escaped code unit.  The first half of a surrogate pair
    takes the second half that is escaped right after it.  A half alone becomes
    the null character, which stands in no file name either. -/
def unitChar (n : Nat) (rest : List Char) : Char × List Char :=
  if 0xD800 ≤ n ∧ n ≤ 0xDBFF then
    match rest with
    | '\\' :: 'u' :: r =>
        match hex4? r with
        | some (m, r) =>
            if 0xDC00 ≤ m ∧ m ≤ 0xDFFF then
              (Char.ofNat (0x10000 + (n - 0xD800) * 0x400 + (m - 0xDC00)), r)
            else ('\x00', rest)
        | none => ('\x00', rest)
    | _ => ('\x00', rest)
  else if 0xDC00 ≤ n ∧ n ≤ 0xDFFF then ('\x00', rest)
  else (Char.ofNat n, rest)

/-- The characters of a string literal after its opening quote. -/
def literalChars : (fuel : Nat) → List Char → Option (List Char × List Char)
  | 0, _ => none
  | _, [] => none
  | fuel + 1, c :: r =>
      if c = '"' then some ([], r)
      else if c = '\\' then
        match r with
        | 'u' :: r => do
            let (n, r) ← hex4? r
            let (c, r) := unitChar n r
            let (cs, r) ← literalChars fuel r
            some (c :: cs, r)
        | e :: r => do
            let c ← shortEscape? e
            let (cs, r) ← literalChars fuel r
            some (c :: cs, r)
        | [] => none
      -- a control character must be escaped
      else if c.toNat < 0x20 then none
      else do
        let (cs, r) ← literalChars fuel r
        some (c :: cs, r)

/-- A string literal after its opening quote. -/
def stringLiteral (s : List Char) : Option (String × List Char) :=
  (literalChars (s.length + 1) s).map fun (cs, r) => (String.ofList cs, r)

/-- The whole part of a number: one zero, or digits that start with another. -/
def wholeDigits (s : List Char) : Option (List Char × List Char) :=
  match Number.digitRun s with
  | ([], _) => none
  | ('0' :: ds, r) => some (['0'], ds ++ r)
  | (ds, r) => some (ds, r)

/-- A fraction, if the point is followed by a digit. -/
def fractionDigits (s : List Char) : List Char × List Char :=
  match s with
  | '.' :: r =>
      match Number.digitRun r with
      | ([], _) => ([], s)
      | (ds, r) => (ds, r)
  | _ => ([], s)

/-- An exponent, if the mark is followed by one. -/
def exponentPart (s : List Char) : Option Int × List Char :=
  match s with
  | c :: r =>
      if c = 'e' ∨ c = 'E' then
        match Number.exponentOf r with
        | some (e, r) => (some e, r)
        | none => (none, s)
      else (none, s)
  | [] => (none, [])

/-- A number.  It is whole if it has neither a fraction nor an exponent. -/
def number (s : List Char) : Option (Json × List Char) := do
  let (negative, r) :=
    match s with
    | '-' :: r => (true, r)
    | _ => (false, s)
  let (whole, r) ← wholeDigits r
  let (fraction, r) := fractionDigits r
  let (exponent, r) := exponentPart r
  if fraction.isEmpty && exponent.isNone then
    if Number.digitLimit < whole.length then none
    else
      let n : Int := Number.digitsValue whole
      some (.num (.int (if negative then -n else n)), r)
  else
    some (.num (.float (Number.ofDecimal negative whole fraction (exponent.getD 0))), r)

/-- A name in front. -/
def skipName (name : String) (s : List Char) : Option (List Char) :=
  if name.toList.isPrefixOf s then some (s.drop name.toList.length) else none

/-- The names of values. -/
def names : List (String × Json) :=
  [("null", .null), ("true", .bool true), ("false", .bool false),
    ("NaN", .num (.float (0.0 / 0.0))), ("Infinity", .num (.float (1.0 / 0.0))),
    ("-Infinity", .num (.float (-(1.0 / 0.0))))]

/-- A value that is neither a string, an array nor an object. -/
def scalar (s : List Char) : Option (Json × List Char) :=
  match names.findSome? fun (name, v) => (skipName name s).map fun r => (v, r) with
  | some found => some found
  | none => number s

/-- What holds other values. -/
inductive Container where
  | array
  | object
  deriving DecidableEq, Repr

/-- Why a text is no document. -/
inductive ReadError where
  | malformed
  /-- Arrays and objects are nested to too many levels; this is the kind of the
      first one that is too deep. -/
  | tooDeep (kind : Container)
  deriving DecidableEq, Repr

/-- What was read with the characters after it, or why nothing was. -/
abbrev Reading (α : Type) := Except ReadError (α × List Char)

/-- What an optional reader read. -/
def Reading.ofOption {α : Type} : Option (α × List Char) → Reading α
  | some found => .ok found
  | none => .error .malformed

mutual

/-- A value, with nothing in front of it, that may hold values to a number of
    levels. -/
def value : (fuel levels : Nat) → List Char → Reading Json
  | 0, _, _ => .error .malformed
  | fuel + 1, levels, s =>
      match s, levels with
      | '"' :: r, _ => (Reading.ofOption (stringLiteral r)).map fun (s, r) => (.str s, r)
      | '[' :: _, 0 => .error (.tooDeep .array)
      | '[' :: r, levels + 1 =>
          match skipSpace r with
          | ']' :: r => .ok (.arr [], r)
          | r => (items fuel levels r).map fun (vs, r) => (.arr vs, r)
      | '\x7b' :: _, 0 => .error (.tooDeep .object)
      | '\x7b' :: r, levels + 1 =>
          match skipSpace r with
          | '\x7d' :: r => .ok (.obj [], r)
          | r => (fields fuel levels r).map fun (fs, r) => (.obj fs, r)
      | s, _ => Reading.ofOption (scalar s)

/-- One item at least, up to the closing bracket. -/
def items : (fuel levels : Nat) → List Char → Reading (List Json)
  | 0, _, _ => .error .malformed
  | fuel + 1, levels, s =>
      match value fuel levels s with
      | .error e => .error e
      | .ok (v, r) =>
          match skipSpace r with
          | ']' :: r => .ok ([v], r)
          | ',' :: r => (items fuel levels (skipSpace r)).map fun (vs, r) => (v :: vs, r)
          | _ => .error .malformed

/-- One field at least, up to the closing brace. -/
def fields : (fuel levels : Nat) → List Char → Reading (List (String × Json))
  | 0, _, _ => .error .malformed
  | fuel + 1, levels, s =>
      match field fuel levels s with
      | .error e => .error e
      | .ok (f, r) =>
          match skipSpace r with
          | '\x7d' :: r => .ok ([f], r)
          | ',' :: r => (fields fuel levels (skipSpace r)).map fun (fs, r) => (f :: fs, r)
          | _ => .error .malformed

/-- A key, a colon and a value. -/
def field : (fuel levels : Nat) → List Char → Reading (String × Json)
  | 0, _, _ => .error .malformed
  | fuel + 1, levels, s =>
      match s with
      | '"' :: r =>
          match stringLiteral r with
          | none => .error .malformed
          | some (key, r) =>
              match skipSpace r with
              | ':' :: r => (value fuel levels (skipSpace r)).map fun (v, r) => ((key, v), r)
              | _ => .error .malformed
      | _ => .error .malformed

end

/-- Reads a document: one value with space around it, nested to a number of
    levels. -/
def parseWithin (levels : Nat) (s : String) : Except ReadError Json :=
  let cs := s.toList
  match value (2 * cs.length + 2) levels (skipSpace cs) with
  | .ok (v, r) => if (skipSpace r).isEmpty then .ok v else .error .malformed
  | .error e => .error e

/-- Reads a document, nested to any number of levels, which cannot be more than
    there are characters. -/
def parse? (s : String) : Option Json := (parseWithin s.length s).toOption

end RoundTrip.Json
