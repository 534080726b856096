import RoundTrip.Text.Utf8

/-! # Octets are read as the text that was written

    The reader of octets never fails, so it may read something that nobody wrote.  What was
    written for a character it reads as that character, whichever state of the machine that
    takes it through: each octet after the first is one that the machine waits for
    (`decodeFrom_tail`, `decodeFrom_last`).  So **`decode_encode_append`**: a text that was
    written is read back, whatever octets follow. -/

namespace RoundTrip.Text

namespace Utf8

/-- An octet that goes on with a sequence, for the lowest six bits of a value. -/
def tail (v : Nat) : UInt8 := UInt8.ofNat (v % 64 + 128)

theorem toNat_tail (v : Nat) : (tail v).toNat = v % 64 + 128 := by
  unfold tail
  rw [UInt8.toNat_ofNat']
  omega

variable {v more low high : Nat} {b : UInt8}

/-- An octet that the machine waits for, with more to come. -/
theorem decodeFrom_tail (hlow : low ≤ v % 64 + 128) (hhigh : v % 64 + 128 ≤ high) (rest : Bytes) :
    decodeFrom (some ⟨v / 64, more + 1, low, high⟩) (tail v :: rest)
      = decodeFrom (some ⟨v, more, 0x80, 0xBF⟩) rest := by
  have hbits : v / 64 * 64 + (v % 64 + 128 - 0x80) = v := by omega
  rw [decodeFrom, toNat_tail, step, if_pos ⟨hlow, hhigh⟩, hbits]
  rfl

/-- The last octet of a sequence. -/
theorem decodeFrom_last (hlow : low ≤ v % 64 + 128) (hhigh : v % 64 + 128 ≤ high) (rest : Bytes) :
    decodeFrom (some ⟨v / 64, 0, low, high⟩) (tail v :: rest)
      = Char.ofNat v :: decodeFrom none rest := by
  have hbits : v / 64 * 64 + (v % 64 + 128 - 0x80) = v := by omega
  rw [decodeFrom, toNat_tail, step, if_pos ⟨hlow, hhigh⟩, hbits]
  rfl

theorem decodeFrom_first {out : List Char} {next : Option Pending}
    (h : first b.toNat = (out, next)) (rest : Bytes) :
    decodeFrom none (b :: rest) = out ++ decodeFrom next rest := by
  rw [decodeFrom, step, h]

/-- A character that takes two octets. -/
theorem first_of_two (hlow : 0x7F < v) (hhigh : v ≤ 0x7FF) :
    first (v / 64 % 32 + 192) = ([], some ⟨v / 64, 0, 0x80, 0xBF⟩) := by
  have hbits : v / 64 % 32 + 192 - 0xC0 = v / 64 := by omega
  unfold first
  rw [if_neg (by omega), if_pos (by omega), hbits]

/-- A character that takes three octets.  Some second octets are refused after some first
    ones, but not those of a character. -/
theorem first_of_three (hlow : 0x7FF < v) (hhigh : v ≤ 0xFFFF)
    (hvalid : ¬ (0xD800 ≤ v ∧ v ≤ 0xDFFF)) :
    ∃ low high, low ≤ v / 64 % 64 + 128 ∧ v / 64 % 64 + 128 ≤ high
      ∧ first (v / 4096 % 16 + 224) = ([], some ⟨v / 64 / 64, 1, low, high⟩) := by
  unfold first
  rw [if_neg (by omega), if_neg (by omega)]
  by_cases hfirst : v / 4096 = 0
  · refine ⟨0xA0, 0xBF, by omega, by omega, ?_⟩
    rw [if_pos (by omega), show v / 64 / 64 = 0 by omega]
  rw [if_neg (by omega)]
  by_cases hlast : v / 4096 = 0xD
  · refine ⟨0x80, 0x9F, by omega, by omega, ?_⟩
    rw [if_pos (by omega), show v / 64 / 64 = 0xD by omega]
  · refine ⟨0x80, 0xBF, by omega, by omega, ?_⟩
    rw [if_neg (by omega), if_pos (by omega),
      show v / 4096 % 16 + 224 - 0xE0 = v / 64 / 64 by omega]

/-- A character that takes four octets. -/
theorem first_of_four (hlow : 0xFFFF < v) (hhigh : v ≤ 0x10FFFF) :
    ∃ low high, low ≤ v / 64 / 64 % 64 + 128 ∧ v / 64 / 64 % 64 + 128 ≤ high
      ∧ first (v / 262144 % 8 + 240) = ([], some ⟨v / 64 / 64 / 64, 2, low, high⟩) := by
  unfold first
  rw [if_neg (by omega), if_neg (by omega), if_neg (by omega), if_neg (by omega),
    if_neg (by omega)]
  by_cases hfirst : v / 262144 = 0
  · refine ⟨0x90, 0xBF, by omega, by omega, ?_⟩
    rw [if_pos (by omega), show v / 64 / 64 / 64 = 0 by omega]
  rw [if_neg (by omega)]
  by_cases hlast : v / 262144 = 4
  · refine ⟨0x80, 0x8F, by omega, by omega, ?_⟩
    rw [if_neg (by omega), if_pos (by omega), show v / 64 / 64 / 64 = 4 by omega]
  · refine ⟨0x80, 0xBF, by omega, by omega, ?_⟩
    rw [if_pos (by omega), show v / 262144 % 8 + 240 - 0xF0 = v / 64 / 64 / 64 by omega]

/-- The octets of a character, by how many there are. -/
theorem utf8EncodeChar_cases {c : Char} (hc : c.toNat = v) :
    v ≤ 0x7F ∧ String.utf8EncodeChar c = [UInt8.ofNat v]
      ∨ 0x7F < v ∧ v ≤ 0x7FF
        ∧ String.utf8EncodeChar c = [UInt8.ofNat (v / 64 % 32 + 192), tail v]
      ∨ 0x7FF < v ∧ v ≤ 0xFFFF
        ∧ String.utf8EncodeChar c = [UInt8.ofNat (v / 4096 % 16 + 224), tail (v / 64), tail v]
      ∨ 0xFFFF < v
        ∧ String.utf8EncodeChar c = [UInt8.ofNat (v / 262144 % 8 + 240), tail (v / 64 / 64),
          tail (v / 64), tail v] := by
  have hdiv : v / 64 / 64 = v / 4096 := Nat.div_div_eq_div_mul v 64 64
  unfold String.utf8EncodeChar tail
  dsimp only
  rw [show c.val.toNat = v from hc, hdiv]
  by_cases hone : v ≤ 0x7F
  · exact Or.inl ⟨hone, if_pos hone⟩
  right
  by_cases htwo : v ≤ 0x7FF
  · exact Or.inl ⟨Nat.lt_of_not_le hone, htwo, by rw [if_neg hone, if_pos htwo]⟩
  right
  by_cases hthree : v ≤ 0xFFFF
  · exact Or.inl ⟨Nat.lt_of_not_le htwo, hthree, by rw [if_neg hone, if_neg htwo, if_pos hthree]⟩
  · exact Or.inr ⟨Nat.lt_of_not_le hthree, by rw [if_neg hone, if_neg htwo, if_neg hthree]⟩

/-- **The octets of a character are read as that character.** -/
theorem decodeFrom_utf8EncodeChar (c : Char) (rest : Bytes) :
    decodeFrom none (String.utf8EncodeChar c ++ rest) = c :: decodeFrom none rest := by
  have hc : Char.ofNat c.toNat = c := Char.ofNat_toNat c
  have hvalid : c.toNat < 0xD800 ∨ 0xDFFF < c.toNat ∧ c.toNat < 0x110000 := c.valid
  have hoctet : ∀ n, n < 256 → (UInt8.ofNat n).toNat = n := by
    intro n hn
    rw [UInt8.toNat_ofNat', Nat.mod_eq_of_lt hn]
  -- one to four octets: the first says how many follow, and each of those adds six bits
  generalize hv : c.toNat = v at hc hvalid
  obtain ⟨hone, hcode⟩ | ⟨hlow, hhigh, hcode⟩ | ⟨hlow, hhigh, hcode⟩ | ⟨hlow, hcode⟩ :=
    utf8EncodeChar_cases hv
  · have hfirst : first (UInt8.ofNat v).toNat = ([c], none) := by
      rw [hoctet v (by omega), first, if_pos (by omega), hc]
    rw [hcode]
    exact decodeFrom_first hfirst rest
  · have hfirst := first_of_two hlow hhigh
    rw [← hoctet (v / 64 % 32 + 192) (by omega)] at hfirst
    rw [hcode]
    calc decodeFrom none (_ :: tail v :: rest)
      _ = decodeFrom (some ⟨v / 64, 0, _, _⟩) (tail v :: rest) := decodeFrom_first hfirst _
      _ = Char.ofNat v :: decodeFrom none rest := decodeFrom_last (by omega) (by omega) rest
      _ = c :: decodeFrom none rest := by rw [hc]
  · obtain ⟨low, high, hle, hge, hfirst⟩ := first_of_three hlow hhigh (by omega)
    rw [← hoctet (v / 4096 % 16 + 224) (by omega)] at hfirst
    rw [hcode]
    calc decodeFrom none (_ :: tail (v / 64) :: tail v :: rest)
      _ = decodeFrom (some ⟨v / 64 / 64, 1, low, high⟩) (tail (v / 64) :: tail v :: rest) :=
          decodeFrom_first hfirst _
      _ = decodeFrom (some ⟨v / 64, 0, _, _⟩) (tail v :: rest) := decodeFrom_tail hle hge _
      _ = Char.ofNat v :: decodeFrom none rest := decodeFrom_last (by omega) (by omega) rest
      _ = c :: decodeFrom none rest := by rw [hc]
  · obtain ⟨low, high, hle, hge, hfirst⟩ := first_of_four hlow (by omega)
    rw [← hoctet (v / 262144 % 8 + 240) (by omega)] at hfirst
    rw [hcode]
    calc decodeFrom none (_ :: tail (v / 64 / 64) :: tail (v / 64) :: tail v :: rest)
      _ = decodeFrom (some ⟨v / 64 / 64 / 64, 2, low, high⟩)
            (tail (v / 64 / 64) :: tail (v / 64) :: tail v :: rest) := decodeFrom_first hfirst _
      _ = decodeFrom (some ⟨v / 64 / 64, 1, _, _⟩) (tail (v / 64) :: tail v :: rest) :=
          decodeFrom_tail hle hge _
      _ = decodeFrom (some ⟨v / 64, 0, _, _⟩) (tail v :: rest) :=
          decodeFrom_tail (by omega) (by omega) _
      _ = Char.ofNat v :: decodeFrom none rest := decodeFrom_last (by omega) (by omega) rest
      _ = c :: decodeFrom none rest := by rw [hc]

end Utf8

/-- **A text that was written is read back**, whatever octets follow. -/
theorem decode_encode_append (s : String) (rest : Bytes) :
    decode (encode s ++ rest) = s ++ decode rest := by
  have hchars : ∀ chars : List Char,
      Utf8.decodeFrom none (chars.flatMap String.utf8EncodeChar ++ rest)
        = chars ++ Utf8.decodeFrom none rest := by
    intro chars
    induction chars with
    | nil => rfl
    | cons c chars ih =>
        rw [List.flatMap_cons, List.append_assoc, Utf8.decodeFrom_utf8EncodeChar, ih]
        rfl
  unfold decode encode
  rw [hchars, String.ofList_append, String.ofList_toList]

theorem decode_encode (s : String) : decode (encode s) = s := by
  have h := decode_encode_append s []
  rwa [List.append_nil, show decode [] = "" from rfl, String.append_empty] at h

end RoundTrip.Text
