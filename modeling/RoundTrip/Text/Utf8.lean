/-! # UTF-8 octets

    Writing a text is core's `String.utf8EncodeChar`, one character after the
    other.  Reading never fails: each maximal part that cannot belong to a
    well-formed sequence becomes one replacement character, U+FFFD.

    The reader is a machine on octets.  Between characters it stands at `none`;
    inside a sequence it holds a `Pending`, which knows the range of the next
    octet.  An octet outside that range ends the pending sequence and is then
    read as the first octet of the next one. -/

namespace RoundTrip

/-- The content of a file or of a stream. -/
abbrev Bytes := List UInt8

namespace Text.Utf8

/-- The character that stands for what could not be read. -/
def replacement : Char := '\uFFFD'

/-- A sequence whose first octets have been read. -/
structure Pending where
  /-- The value of the bits read so far. -/
  bits : Nat
  /-- How many octets are owed after the next one. -/
  more : Nat
  /-- The least value of the next octet. -/
  low : Nat
  /-- The greatest value of the next octet. -/
  high : Nat
  deriving DecidableEq, Repr

/-- Reads an octet that stands between characters: what it writes, and the
    sequence it opens. -/
def first (b : Nat) : List Char × Option Pending :=
  if b < 0x80 then ([Char.ofNat b], none)
  else if 0xC2 ≤ b ∧ b ≤ 0xDF then ([], some ⟨b - 0xC0, 0, 0x80, 0xBF⟩)
  else if b = 0xE0 then ([], some ⟨0, 1, 0xA0, 0xBF⟩)
  else if b = 0xED then ([], some ⟨0xD, 1, 0x80, 0x9F⟩)
  else if 0xE1 ≤ b ∧ b ≤ 0xEF then ([], some ⟨b - 0xE0, 1, 0x80, 0xBF⟩)
  else if b = 0xF0 then ([], some ⟨0, 2, 0x90, 0xBF⟩)
  else if 0xF1 ≤ b ∧ b ≤ 0xF3 then ([], some ⟨b - 0xF0, 2, 0x80, 0xBF⟩)
  else if b = 0xF4 then ([], some ⟨4, 2, 0x80, 0x8F⟩)
  else ([replacement], none)

/-- Reads one octet: what is written, and where the machine stands then. -/
def step : Option Pending → Nat → List Char × Option Pending
  | none, b => first b
  | some p, b =>
      if p.low ≤ b ∧ b ≤ p.high then
        let bits := p.bits * 64 + (b - 0x80)
        match p.more with
        | 0 => ([Char.ofNat bits], none)
        | more + 1 => ([], some ⟨bits, more, 0x80, 0xBF⟩)
      else
        (replacement :: (first b).1, (first b).2)

/-- Reads octets from a state of the machine.  A sequence still pending at the
    end is one ill-formed part. -/
def decodeFrom : Option Pending → Bytes → List Char
  | none, [] => []
  | some _, [] => [replacement]
  | state, b :: rest =>
      let (out, next) := step state b.toNat
      out ++ decodeFrom next rest

end Text.Utf8

namespace Text

/-- The octets of a text. -/
def encode (s : String) : Bytes :=
  s.toList.flatMap String.utf8EncodeChar

/-- The text of octets, with U+FFFD for every maximal ill-formed part. -/
def decode (b : Bytes) : String :=
  String.ofList (Utf8.decodeFrom none b)

/-- The text of octets that are well-formed UTF-8. -/
def decode? (b : Bytes) : Option String :=
  let s := decode b
  if encode s = b then some s else none

end Text

end RoundTrip
