import RoundTrip.Number.Basic
import RoundTrip.Number.Digits

/-! # The texts of numbers

    A binary64 value is written with the fewest digits that read back.  Where
    they stand is decided by a `Layout`: positionally for middle exponents, with
    an exponent mark otherwise. -/

namespace RoundTrip.Number

/-- How the digits of a number are laid out. -/
structure Layout where
  /-- The least exponent of the first digit that is written positionally. -/
  leastPositional : Int
  /-- The first exponent that is too large for that. -/
  positionalEnd : Int
  /-- What follows a whole number, so that it shows as a fraction. -/
  wholeEnd : String
  /-- What stands between digits and exponent. -/
  mark : String
  /-- The least number of digits of an exponent. -/
  exponentWidth : Nat
  infinity : String
  notANumber : String

/-- Messages and answers write values from `0.0001` up to below `1e+16`
    positionally, and an exponent with its sign and at least two digits. -/
def plainLayout : Layout where
  leastPositional := -4
  positionalEnd := 16
  wholeEnd := ".0"
  mark := "e"
  exponentWidth := 2
  infinity := "inf"
  notANumber := "nan"

/-- Documents differ in the names of the values that are not finite. -/
def documentLayout : Layout :=
  { plainLayout with infinity := "Infinity", notANumber := "NaN" }

/-- Zeros in front of digits, up to a width. -/
def padZeros (width : Nat) (s : String) : String :=
  "".pushn '0' (width - s.length) ++ s

/-- The text of an exponent, always with a sign. -/
def Layout.exponent (l : Layout) (e : Int) : String :=
  (if e < 0 then "-" else "+") ++ padZeros l.exponentWidth (toString e.natAbs)

/-- The text of a positive decimal without zeros at its end. -/
def Layout.positive (l : Layout) (d : Decimal) : String :=
  let ds := toString d.digits
  let count := ds.length
  let first := d.exponent + count - 1
  if l.leastPositional ≤ first ∧ first < l.positionalEnd then
    if 0 ≤ d.exponent then
      ds ++ "".pushn '0' d.exponent.toNat ++ l.wholeEnd
    else if 0 ≤ first then
      let cut := (first + 1).toNat
      String.ofList (ds.toList.take cut) ++ "." ++ String.ofList (ds.toList.drop cut)
    else
      "0." ++ "".pushn '0' (-first - 1).toNat ++ ds
  else
    let tail := ds.toList.drop 1
    String.ofList (ds.toList.take 1) ++ (if tail.isEmpty then "" else "." ++ String.ofList tail)
      ++ l.mark ++ l.exponent first

/-- The text of a binary64 value. -/
def Layout.float (l : Layout) (x : Float) : String :=
  match x.toModel.unpack with
  | .notANumber => l.notANumber
  | .infinity s => (if s == .negative then "-" else "") ++ l.infinity
  | .zero s => (if s == .negative then "-" else "") ++ "0" ++ l.wholeEnd
  | .finite s m q _ => (if s == .negative then "-" else "") ++ l.positive (shortest m q)

/-- The text of a number. -/
def Layout.text (l : Layout) : Number → String
  | .int n => toString n
  | .float x => l.float x

/-- The text of a number in messages. -/
def text (n : Number) : String :=
  plainLayout.text n

end RoundTrip.Number
