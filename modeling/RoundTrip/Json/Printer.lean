import RoundTrip.Json.Basic
import RoundTrip.Number.Notation
import RoundTrip.Text.Quoted

/-! # Writing documents

    A document is written over several lines, two columns further in for each
    level.  Only what must be escaped is escaped: the quote, the backslash and
    the characters below the space.  An empty array or object takes one line. -/

namespace RoundTrip.Json

/-- One character of a string literal. -/
def escapeChar (c : Char) : List Char :=
  if c = '"' then ['\\', '"']
  else if c = '\\' then ['\\', '\\']
  else if c = '\n' then ['\\', 'n']
  else if c = '\r' then ['\\', 'r']
  else if c = '\t' then ['\\', 't']
  else if c = '\x08' then ['\\', 'b']
  else if c = '\x0c' then ['\\', 'f']
  else if c.toNat < 0x20 then '\\' :: 'u' :: Text.hexDigits 4 c.toNat
  else [c]

/-- A string literal. -/
def literal (s : String) : List Char :=
  '"' :: (s.toList.flatMap escapeChar ++ ['"'])

/-- The start of a line at a level. -/
def newline (level : Nat) : List Char :=
  '\n' :: List.replicate (2 * level) ' '

mutual

/-- The text of a value that stands at a level. -/
def render (level : Nat) : Json → List Char
  | .null => "null".toList
  | .bool true => "true".toList
  | .bool false => "false".toList
  | .num n => (Number.documentLayout.text n).toList
  | .str s => literal s
  | .arr [] => ['[', ']']
  | .arr (v :: vs) =>
      '[' :: (newline (level + 1) ++ render (level + 1) v ++ renderItems (level + 1) vs
        ++ newline level ++ [']'])
  | .obj [] => ['\x7b', '\x7d']
  | .obj ((k, v) :: fs) =>
      '\x7b' :: (newline (level + 1) ++ literal k ++ [':', ' '] ++ render (level + 1) v
        ++ renderFields (level + 1) fs ++ newline level ++ ['\x7d'])

/-- The items after the first. -/
def renderItems (level : Nat) : List Json → List Char
  | [] => []
  | v :: vs => ',' :: (newline level ++ render level v ++ renderItems level vs)

/-- The fields after the first. -/
def renderFields (level : Nat) : List (String × Json) → List Char
  | [] => []
  | (k, v) :: fs =>
      ',' :: (newline level ++ literal k ++ [':', ' '] ++ render level v ++ renderFields level fs)

end

/-- The text of a document. -/
def print (v : Json) : String :=
  String.ofList (render 0 v)

end RoundTrip.Json
