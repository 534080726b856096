import RoundTrip.Number.Basic

/-! # Documents

    A document is a tree of values.  An object keeps its fields in order. -/

namespace RoundTrip

/-- A value of a document. -/
inductive Json where
  | null
  | bool (b : Bool)
  | num (n : Number)
  | str (s : String)
  | arr (items : List Json)
  | obj (fields : List (String × Json))

namespace Json

/-- A whole number. -/
def int (n : Int) : Json := .num (.int n)

/-- A text, or `null` in place of none. -/
def ofText? : Option String → Json
  | some s => .str s
  | none => .null

/-- The value of a field, the last one where a key is repeated. -/
def get? (key : String) : Json → Option Json
  | .obj fields => (fields.reverse.find? fun f => f.1 = key).map (·.2)
  | _ => none

end Json

end RoundTrip
