import RoundTrip.Text.Printable

/-! # Quoted texts

    Messages name a file by its quoted text.  The text stands between single
    quotes, or between double quotes when it holds a single quote and no double
    quote.  The backslash and the quote in use are escaped, and so is every
    character that is not printable. -/

namespace RoundTrip.Text

/-- The last `width` hexadecimal digits of a number, in lower case. -/
def hexDigits : (width : Nat) → Nat → List Char
  | 0, _ => []
  | w + 1, n => hexDigits w (n / 16) ++ [Nat.digitChar (n % 16)]

/-- An unprintable character by its code point, in the shortest of the three
    widths that holds it. -/
def escapeCode (n : Nat) : List Char :=
  if n ≤ 0xFF then '\\' :: 'x' :: hexDigits 2 n
  else if n ≤ 0xFFFF then '\\' :: 'u' :: hexDigits 4 n
  else '\\' :: 'U' :: hexDigits 8 n

/-- One character of a quoted text. -/
def escapeQuoted (quote c : Char) : List Char :=
  if c = quote ∨ c = '\\' then ['\\', c]
  else if c = '\n' then ['\\', 'n']
  else if c = '\r' then ['\\', 'r']
  else if c = '\t' then ['\\', 't']
  else if isPrintable c then [c]
  else escapeCode c.toNat

/-- The quote that a text is written between. -/
def quoteFor (s : List Char) : Char :=
  if s.contains '\'' && !s.contains '"' then '"' else '\''

/-- The quoted form of a text. -/
def quoted (s : String) : String :=
  let q := quoteFor s.toList
  String.ofList (q :: (s.toList.flatMap (escapeQuoted q) ++ [q]))

end RoundTrip.Text
