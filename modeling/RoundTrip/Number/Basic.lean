/-! # Numbers

    Time limits, durations and numbers of a document are either whole or
    binary64 values, and the two are written differently: `5` and `5.0`.

    Comparison is by exact value.  `exact` takes a binary64 value apart into a
    mantissa and a power of two, and `lt` compares across the two forms without
    rounding either side. -/

namespace RoundTrip

/-- A whole number of any size, or a binary64 value. -/
inductive Number where
  | int (n : Int)
  | float (x : Float)
  deriving DecidableEq

namespace Number

/-- What a binary64 value stands for. -/
inductive Exact where
  /-- The value `mantissa * 2 ^ exponent`. -/
  | finite (mantissa : Int) (exponent : Int)
  | infinite (negative : Bool)
  | notANumber
  deriving DecidableEq, Repr

/-- The exact value of a binary64 value. -/
def exact (x : Float) : Exact :=
  match x.toModel.unpack with
  | .notANumber => .notANumber
  | .infinity s => .infinite (s == .negative)
  | .zero _ => .finite 0 0
  | .finite s m e _ => .finite (s.apply m) e

/-- The power of a base, and one where the exponent is negative.  So `b ^ e` is
    the fraction of `power b e` and `power b (-e)`. -/
def power (base : Nat) (e : Int) : Nat := Nat.pow base e.toNat

/-- Whether a whole number is below `mantissa * 2 ^ exponent`. -/
def intBelowDyadic (n mantissa exponent : Int) : Bool :=
  n * power 2 (-exponent) < mantissa * power 2 exponent

/-- Whether `mantissa * 2 ^ exponent` is below a whole number. -/
def dyadicBelowInt (mantissa exponent n : Int) : Bool :=
  mantissa * power 2 exponent < n * power 2 (-exponent)

/-- Strict comparison by exact value.  Nothing compares with what is not a
    number. -/
def lt : Number → Number → Bool
  | .int a, .int b => a < b
  | .float a, .float b => a < b
  | .int a, .float b =>
      match exact b with
      | .finite m e => intBelowDyadic a m e
      | .infinite negative => !negative
      | .notANumber => false
  | .float a, .int b =>
      match exact a with
      | .finite m e => dyadicBelowInt m e b
      | .infinite negative => negative
      | .notANumber => false

/-- The nearest binary64 value, unless that is an infinity for a whole number. -/
def toFloat? : Number → Option Float
  | .int n => if (Float.ofInt n).isInf then none else some (Float.ofInt n)
  | .float x => some x

/-- The number itself, or zero in place of a negative one. -/
def atLeastZero (n : Number) : Number :=
  if n.lt (.int 0) then .int 0 else n

/-- The whole part of a binary64 value, rounded toward zero, if it has one. -/
def truncate? (x : Float) : Option Int :=
  match exact x with
  | .finite m e => some ((m * power 2 e).tdiv (power 2 (-e)))
  | _ => none

/-- The whole number that a binary64 value is equal to, if there is one. -/
def whole? (x : Float) : Option Int :=
  match exact x with
  | .finite m e =>
      if m.emod (power 2 (-e)) = 0 then some ((m * power 2 e).tdiv (power 2 (-e))) else none
  | _ => none

end Number

end RoundTrip
