import RoundTrip.Number.Basic

/-! # The fewest digits that read back

    The reals that round to a positive binary64 value `m * 2 ^ q` form an
    interval: from halfway to the neighbour below to halfway to the neighbour
    above, the two ends included exactly when `m` is even.  `shortest` returns
    the shortest decimal in that interval, and of several the nearest.

    The route: one digit after the other the grid of decimals gets finer.  If
    any point of a grid lies in the interval, so does one of the two points
    around the value, so only these two are tested.  All arithmetic is on
    naturals. -/

namespace RoundTrip.Number

/-- A decimal, `digits * 10 ^ exponent`. -/
structure Decimal where
  digits : Nat
  exponent : Int
  deriving DecidableEq, Repr

/-- The interval of reals that round to one value, in units of `1 / unit`. -/
structure Interval where
  unit : Nat
  low : Nat
  value : Nat
  high : Nat
  /-- Whether the two ends round to the value too. -/
  closed : Bool

/-- The interval of the value `m * 2 ^ q`.  Below a power of two the gap is
    half as wide, but for the least exponent. -/
def Interval.of (m : Nat) (q : Int) : Interval :=
  let scale := power 2 (q - 2)
  let narrow := m == power 2 52 && q != -1074
  { unit := power 2 (2 - q)
    low := (4 * m - (if narrow then 1 else 2)) * scale
    value := 4 * m * scale
    high := (4 * m + 2) * scale
    closed := m % 2 == 0 }

/-- Whether `d * 10 ^ p` lies in the interval. -/
def Interval.holds (i : Interval) (d : Nat) (p : Int) : Bool :=
  let x := d * power 10 p * i.unit
  let s := power 10 (-p)
  if i.closed then i.low * s ≤ x && x ≤ i.high * s
  else i.low * s < x && x < i.high * s

/-- The greatest point of the grid of step `10 ^ p` that is not above the
    value. -/
def Interval.below (i : Interval) (p : Int) : Nat :=
  i.value * power 10 (-p) / (i.unit * power 10 p)

/-- The point of a grid that reads back: of the two around the value the one in
    the interval, of two such points the nearer, and on a tie the even one. -/
def Interval.point? (i : Interval) (p : Int) : Option Nat :=
  let d := i.below p
  match i.holds d p, i.holds (d + 1) p with
  | false, false => none
  | true, false => some d
  | false, true => some (d + 1)
  | true, true =>
      -- both read back, so the nearer one wins
      let twice := 2 * i.value * power 10 (-p)
      let middle := (2 * d + 1) * (i.unit * power 10 p)
      if twice < middle then some d
      else if middle < twice then some (d + 1)
      else some (if d % 2 == 0 then d else d + 1)

/-- The number of digits of the whole part of `value / unit`, or a number that
    is at most the exponent of its first digit. -/
def Interval.scale (i : Interval) : Int :=
  -- 1233 / 4096 is a little below the decimal logarithm of two.
  let estimate : Int := ((Nat.log2 i.value : Int) - (Nat.log2 i.unit : Int) - 1) * 1233 / 4096
  let reaches (k : Int) : Bool := i.unit * power 10 k ≤ i.value * power 10 (-k)
  let k := estimate - 1
  (List.range 4).foldl (fun k _ => if reaches k then k + 1 else k) k

/-- Searches the grids from the coarsest on, `fuel` of them. -/
def Interval.search (i : Interval) : (fuel : Nat) → Int → Option Decimal
  | 0, _ => none
  | fuel + 1, p =>
      match i.point? p with
      | some d => some ⟨d, p⟩
      | none => i.search fuel (p - 1)

/-- Moves the zeros at the end of the digits into the exponent, `fuel` at
    most. -/
def Decimal.strip : (fuel : Nat) → Decimal → Decimal
  | 0, d => d
  | fuel + 1, d =>
      if d.digits ≠ 0 ∧ d.digits % 10 = 0 then strip fuel ⟨d.digits / 10, d.exponent + 1⟩ else d

/-- The exact decimal value of `m * 2 ^ q`. -/
def Decimal.exact (m : Nat) (q : Int) : Decimal :=
  ⟨m * power 2 q * power 5 (-q), min q 0⟩

/-- The shortest decimal that reads back as the positive value `m * 2 ^ q`,
    without zeros at its end. -/
def shortest (m : Nat) (q : Int) : Decimal :=
  let i := Interval.of m q
  let d := (i.search 18 (i.scale - 1)).getD (Decimal.exact m q)
  d.strip (Nat.log2 d.digits + 1)

end RoundTrip.Number
