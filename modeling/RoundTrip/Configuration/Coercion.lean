import RoundTrip.Json.Basic
import RoundTrip.Number.Literal
import RoundTrip.Path
import RoundTrip.Configuration.Field

/-! # Values for the fields

    A value is accepted if it can be taken for what its field holds without
    losing anything.  A number may be written as a text, a truth value counts as
    zero or one, and a whole number may come with a fraction of zeros; a text is
    never made from anything else. -/

namespace RoundTrip.Configuration

/-- A value, or what is wrong with it.  Of several values all refusals are
    kept. -/
inductive Checked (α : Type) where
  | ok (a : α)
  | refused (values : List Refusal)

namespace Checked

variable {α β : Type}

/-- Applies a function to a value, unless one of the two is refused. -/
def apply : Checked (α → β) → Checked α → Checked β
  | .ok f, .ok a => .ok (f a)
  | .ok _, .refused rs => .refused rs
  | .refused rs, .ok _ => .refused rs
  | .refused rs, .refused rs' => .refused (rs ++ rs')

instance : Applicative Checked where
  pure := .ok
  seq f a := apply f (a ())

/-- A value for a field, or why it is refused. -/
def ofExcept (field : Field) (index : Option Nat) : Except Misfit α → Checked α
  | .ok a => .ok a
  | .error m => .refused [⟨field, index, m⟩]

end Checked

/-- A text. -/
def text : Json → Except Misfit String
  | .str s => .ok s
  | _ => .error .notText

/-- A path. -/
def path : Json → Except Misfit Path
  | .str s => .ok (Path.ofString s)
  | _ => .error .notPath

/-- The bound that the size of a whole number stays below if it is given as a
    binary64 value. -/
def wholeFloatBound : Nat := 9223372036854775808

/-- A whole number. -/
def integer : Json → Except Misfit Int
  | .num (.int n) => .ok n
  | .bool b => .ok (if b then 1 else 0)
  | .num (.float x) =>
      match Number.whole? x with
      | some n => if n.natAbs < wholeFloatBound then .ok n else .error .integerTooLong
      | none => .error (if x.isNaN || x.isInf then .notFinite else .fraction)
  | .str s =>
      match Number.readInt s with
      | .ok n => .ok n
      | .error .malformed => .error .noInteger
      | .error .tooLong => .error .integerTooLong
  | _ => .error .notInteger

/-- A binary64 value.  A whole number beyond their range is none. -/
def number : Json → Except Misfit Float
  | .num n =>
      match n.toFloat? with
      | some x => .ok x
      | none => .error .notNumber
  | .bool b => .ok (if b then 1 else 0)
  | .str s =>
      match Number.readFloat? s with
      | some x => .ok x
      | none => .error .noNumber
  | _ => .error .notNumber

/-- The texts of a list, whose first item has an index. -/
def textItems (field : Field) (index : Nat) : List Json → Checked (List String)
  | [] => .ok []
  | v :: vs =>
      List.cons <$> Checked.ofExcept field (some index) (text v)
        <*> textItems field (index + 1) vs

/-- A list of texts. -/
def texts (field : Field) : Json → Checked (List String)
  | .arr vs => textItems field 0 vs
  | _ => .refused [⟨field, none, .notList⟩]

end RoundTrip.Configuration
