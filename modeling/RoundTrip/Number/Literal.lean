import RoundTrip.Number.Basic
import RoundTrip.Text.Blank

/-! # Numbers from texts

    A decimal literal is taken apart into a sign, the digits before and after
    the point and an exponent, and then rounded once to the nearest binary64
    value.  A whole number is tidied first: what is left of its text is read
    digit by digit.

    Both readers allow white space around a number and single underscores in
    it, but not in the same way: a binary64 value has either the one or the
    other. -/

namespace RoundTrip.Number

/-- The most digits that a whole number may be written with. -/
def digitLimit : Nat := 4300

/-- The value of decimal digits. -/
def digitsValue (ds : List Char) : Nat :=
  ds.foldl (fun n c => 10 * n + (c.toNat - '0'.toNat)) 0

/-- The digits in front, and the rest. -/
def digitRun (s : List Char) : List Char × List Char :=
  (s.takeWhile Char.isDigit, s.dropWhile Char.isDigit)

/-- A sign in front: whether it is a minus, and the rest. -/
def signOf : List Char → Bool × List Char
  | '-' :: r => (true, r)
  | '+' :: r => (false, r)
  | r => (false, r)

/-- The binary64 value nearest to a decimal literal. -/
def ofDecimal (negative : Bool) (whole fraction : List Char) (exponent : Int) : Float :=
  let m := digitsValue (whole ++ fraction)
  let e := exponent - fraction.length
  let x := Float.ofScientific m (e < 0) e.natAbs
  if negative then -x else x

/-- An exponent after its mark: an optional sign and at least one digit. -/
def exponentOf (s : List Char) : Option (Int × List Char) :=
  let (negative, r) := signOf s
  let (ds, rest) := digitRun r
  if ds.isEmpty then none
  else some (if negative then -(digitsValue ds : Int) else digitsValue ds, rest)

/-- Whether every underscore of a text has other characters on both sides. -/
def hasSingleUnderscores (s : List Char) : Bool :=
  s.head? != some '_' && s.getLast? != some '_' && (s.zip s.tail).all (· != ('_', '_'))

/-- Drops the underscores of a text, unless one stands at an end or beside
    another. -/
def dropUnderscores (s : List Char) : List Char :=
  if hasSingleUnderscores s then s.filter (· != '_') else s

/-- A decimal literal without a sign: digits with an optional point, at least
    one digit in all, and an optional exponent, up to the end of the text. -/
def unsignedDecimal (negative : Bool) (s : List Char) : Option Float :=
  let (whole, r) := digitRun s
  let (fraction, r) :=
    match r with
    | '.' :: t => digitRun t
    | t => ([], t)
  if whole.isEmpty && fraction.isEmpty then none
  else
    match r with
    | [] => some (ofDecimal negative whole fraction 0)
    | c :: t =>
        if c = 'e' ∨ c = 'E' then
          match exponentOf t with
          | some (e, []) => some (ofDecimal negative whole fraction e)
          | _ => none
        else none

/-- The binary64 value that characters name: a decimal literal, an infinity or
    the value that is not a number, in any case. -/
def plainFloat? (s : List Char) : Option Float :=
  let (negative, r) := signOf s
  let name := r.map Char.toLower
  if name = "inf".toList ∨ name = "infinity".toList then
    some (if negative then -(1.0 / 0.0) else 1.0 / 0.0)
  else if name = "nan".toList then
    some (0.0 / 0.0)
  else
    unsignedDecimal negative r

/-- The binary64 value that a text names, with white space around it or with
    underscores in it. -/
def readFloat? (s : String) : Option Float :=
  (plainFloat? (Text.trimSpace s).toList).or (plainFloat? (dropUnderscores s.toList))

/-- What is wrong with the text of a whole number. -/
inductive IntError where
  | malformed
  | tooLong
  deriving DecidableEq, Repr

/-- The sign in front of a whole number, and the rest.  A plus is left out, and
    no minus may follow it. -/
def wholeSign? : List Char → Option (List Char × List Char)
  | '+' :: '-' :: _ => none
  | '+' :: r => some ([], r)
  | '-' :: r => some (['-'], r)
  | r => some ([], r)

/-- What is left after a zero in front.  Further zeros and underscores go with
    it, but the last of them stays before a point and at the end. -/
def afterZero (last : Char) : List Char → Option (List Char)
  | [] => some [last]
  | c :: r =>
      if c = '0' ∨ c = '_' then afterZero c r
      else if c = '.' then some (last :: c :: r)
      else if c = '-' ∨ c.isDigit then some (c :: r)
      else none

/-- Drops the zeros in front.  A minus may stand before the first other digit,
    even after zeros. -/
def dropLeadingZeros : List Char → Option (List Char)
  | [] => none
  | c :: r =>
      if c = '0' then afterZero c r
      else if c = '-' ∨ c.isDigit then some (c :: r)
      else none

/-- Drops a fraction of zeros, of which there is at least one. -/
def dropZeroFraction (s : List Char) : List Char :=
  match s.dropWhile (· != '.') with
  | '.' :: '0' :: zeros => if zeros.all (· == '0') then s.takeWhile (· != '.') else s
  | _ => s

/-- Leaves out of a whole number what is allowed in its text but says nothing. -/
def tidyInt? (s : List Char) : Option (List Char) := do
  let (sign, r) ← wholeSign? s
  let r ← dropLeadingZeros r
  some (sign ++ dropUnderscores (dropZeroFraction r))

/-- The whole number that characters name: an optional minus and digits, of which
    the first is a zero only if it is the only one.  The minus counts toward the
    length. -/
def plainInt (s : List Char) : Except IntError Int :=
  let (negative, r) :=
    match s with
    | '-' :: r => (true, r)
    | _ => (false, s)
  let (ds, rest) := digitRun r
  if ds.isEmpty ∨ (ds.head? = some '0' ∧ 1 < ds.length) then .error .malformed
  else if digitLimit < s.length - rest.length then .error .tooLong
  else if !rest.isEmpty then .error .malformed
  else
    let n : Int := digitsValue ds
    .ok (if negative then -n else n)

/-- The whole number that a text names, with white space around it. -/
def readInt (s : String) : Except IntError Int :=
  match tidyInt? (Text.trimSpace s).toList with
  | some cs => plainInt cs
  | none => .error .malformed

end RoundTrip.Number
