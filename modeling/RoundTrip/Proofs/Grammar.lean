import RoundTrip.Json.Reader

/-! # The grammar of documents

    A derivation says that a value is spelled at the front of a text, and what is left of
    the text after it.  There is one rule for each form of a value; the rules of string
    literals and numerals come first.  They are those of the standard grammar: a string is
    made of characters, so a surrogate stands in it only as half of an escaped pair, and a
    numeral has as many digits as it likes.

    A text may be cut in more than one place, but it is read in one way only: where a rule
    applies to what is in front, no other does, and a value has no space at its start
    (`Value.skipSpace_eq`).  By induction on derivations **a text spells at most one
    value**: `Spells.unique` -/

namespace RoundTrip.Json

namespace Grammar

/-! ## The rules -/

/-- The characters of a string literal after its opening quote, up to the closing one. -/
inductive Letters : List Char → List Char → List Char → Prop where
  | close (r : List Char) : Letters ('"' :: r) [] r
  | plain {c : Char} {s cs r : List Char} (hquote : c ≠ '"') (hescape : c ≠ '\\')
      (hcontrol : 0x20 ≤ c.toNat) (tail : Letters s cs r) : Letters (c :: s) (c :: cs) r
  /-- An escape of one letter. -/
  | short {e c : Char} {s cs r : List Char} (he : shortEscape? e = some c)
      (tail : Letters s cs r) : Letters ('\\' :: e :: s) (c :: cs) r
  /-- An escaped code unit that is a character. -/
  | unit {n : Nat} {s s₁ cs r : List Char} (hn : hex4? s = some (n, s₁))
      (hchar : n < 0xD800 ∨ 0xDFFF < n) (tail : Letters s₁ cs r) :
      Letters ('\\' :: 'u' :: s) (Char.ofNat n :: cs) r
  /-- Two escaped code units that are a character together. -/
  | pair {n m : Nat} {s s₁ s₂ cs r : List Char} (hn : hex4? s = some (n, '\\' :: 'u' :: s₁))
      (hhigh : 0xD800 ≤ n ∧ n ≤ 0xDBFF) (hm : hex4? s₁ = some (m, s₂))
      (hlow : 0xDC00 ≤ m ∧ m ≤ 0xDFFF) (tail : Letters s₂ cs r) :
      Letters ('\\' :: 'u' :: s)
        (Char.ofNat (0x10000 + (n - 0xD800) * 0x400 + (m - 0xDC00)) :: cs) r

/-- A numeral after its sign. -/
inductive Numeral (negative : Bool) : List Char → Number → List Char → Prop where
  /-- A whole number has neither a fraction nor an exponent. -/
  | whole {ds s r : List Char} (hwhole : wholeDigits s = some (ds, r))
      (hfraction : fractionDigits r = ([], r)) (hexponent : exponentPart r = (none, r)) :
      Numeral negative s
        (.int (if negative then -(Number.digitsValue ds : Int) else Number.digitsValue ds)) r
  | decimal {ds fs s r₁ r₂ r : List Char} {e : Option Int}
      (hwhole : wholeDigits s = some (ds, r₁)) (hfraction : fractionDigits r₁ = (fs, r₂))
      (hexponent : exponentPart r₂ = (e, r)) (hpart : fs ≠ [] ∨ e ≠ none) :
      Numeral negative s (.float (Number.ofDecimal negative ds fs (e.getD 0))) r

mutual

/-- A value without space in front. -/
inductive Value : List Char → Json → List Char → Prop where
  | null (r : List Char) : Value ('n' :: 'u' :: 'l' :: 'l' :: r) .null r
  | yes (r : List Char) : Value ('t' :: 'r' :: 'u' :: 'e' :: r) (.bool true) r
  | no (r : List Char) : Value ('f' :: 'a' :: 'l' :: 's' :: 'e' :: r) (.bool false) r
  | number {n : Number} {s r : List Char} (h : Numeral false s n r) : Value s (.num n) r
  | negative {n : Number} {s r : List Char} (h : Numeral true s n r) :
      Value ('-' :: s) (.num n) r
  | string {s cs r : List Char} (h : Letters s cs r) :
      Value ('"' :: s) (.str (String.ofList cs)) r
  | noItems {s r : List Char} (h : skipSpace s = ']' :: r) : Value ('[' :: s) (.arr []) r
  | items {vs : List Json} {s r : List Char} (h : Items (skipSpace s) vs r) :
      Value ('[' :: s) (.arr vs) r
  | noFields {s r : List Char} (h : skipSpace s = '\x7d' :: r) : Value ('\x7b' :: s) (.obj []) r
  | fields {fs : List (String × Json)} {s r : List Char} (h : Fields (skipSpace s) fs r) :
      Value ('\x7b' :: s) (.obj fs) r

/-- One item at least, up to the closing bracket. -/
inductive Items : List Char → List Json → List Char → Prop where
  | last {v : Json} {s s₁ r : List Char} (h : Value s v s₁) (hend : skipSpace s₁ = ']' :: r) :
      Items s [v] r
  | more {v : Json} {vs : List Json} {s s₁ s₂ r : List Char} (h : Value s v s₁)
      (hcomma : skipSpace s₁ = ',' :: s₂) (tail : Items (skipSpace s₂) vs r) :
      Items s (v :: vs) r

/-- One field at least, up to the closing brace. -/
inductive Fields : List Char → List (String × Json) → List Char → Prop where
  | last {f : String × Json} {s s₁ r : List Char} (h : Field s f s₁)
      (hend : skipSpace s₁ = '\x7d' :: r) : Fields s [f] r
  | more {f : String × Json} {fs : List (String × Json)} {s s₁ s₂ r : List Char}
      (h : Field s f s₁) (hcomma : skipSpace s₁ = ',' :: s₂)
      (tail : Fields (skipSpace s₂) fs r) : Fields s (f :: fs) r

/-- A key, a colon and a value. -/
inductive Field : List Char → String × Json → List Char → Prop where
  | mk {v : Json} {s s₁ s₂ key r : List Char} (hkey : Letters s key s₁)
      (hcolon : skipSpace s₁ = ':' :: s₂) (hvalue : Value (skipSpace s₂) v r) :
      Field ('"' :: s) (String.ofList key, v) r

end

/-! ## One way to read a text -/

variable {c : Char} {s r r' : List Char} {v v' : Json} {n n' : Number} {negative : Bool}

/-- The mark of a code unit is no escape of its own. -/
theorem not_short_unit : shortEscape? 'u' ≠ some c := by
  show none ≠ some c
  exact fun h => nomatch h

/-- A string literal is read in one way. -/
theorem Letters.unique {cs cs' : List Char} (h : Letters s cs r) (h' : Letters s cs' r') :
    cs = cs' ∧ r = r' := by
  induction h generalizing cs' with
  | close r =>
      cases h' with
      | close => exact ⟨rfl, rfl⟩
      | plain hquote => exact absurd rfl hquote
  | plain hquote hescape hcontrol _ ih =>
      cases h' with
      | close => exact absurd rfl hquote
      | plain _ _ _ tail =>
          obtain ⟨rfl, rfl⟩ := ih tail
          exact ⟨rfl, rfl⟩
      | short => exact absurd rfl hescape
      | unit => exact absurd rfl hescape
      | pair => exact absurd rfl hescape
  | short he _ ih =>
      cases h' with
      | plain _ hescape => exact absurd rfl hescape
      | short he' tail =>
          obtain ⟨rfl, rfl⟩ := ih tail
          rw [he] at he'
          cases he'
          exact ⟨rfl, rfl⟩
      | unit => exact absurd he not_short_unit
      | pair => exact absurd he not_short_unit
  | unit hn hchar _ ih =>
      cases h' with
      | plain _ hescape => exact absurd rfl hescape
      | short he => exact absurd he not_short_unit
      | unit hn' _ tail =>
          rw [hn] at hn'
          cases hn'
          obtain ⟨rfl, rfl⟩ := ih tail
          exact ⟨rfl, rfl⟩
      | pair hn' hhigh =>
          -- the first unit of a pair is no character on its own
          rw [hn] at hn'
          cases hn'
          omega
  | pair hn hhigh hm _ _ ih =>
      cases h' with
      | plain _ hescape => exact absurd rfl hescape
      | short he => exact absurd he not_short_unit
      | unit hn' hchar =>
          rw [hn] at hn'
          cases hn'
          omega
      | pair hn' _ hm' _ tail =>
          rw [hn] at hn'
          cases hn'
          rw [hm] at hm'
          cases hm'
          obtain ⟨rfl, rfl⟩ := ih tail
          exact ⟨rfl, rfl⟩

/-- What starts a numeral is a digit. -/
theorem isDigit_of_wholeDigits {ds : List Char} (h : wholeDigits (c :: s) = some (ds, r)) :
    c.isDigit = true := by
  cases hc : c.isDigit with
  | true => rfl
  | false =>
      unfold wholeDigits Number.digitRun at h
      rw [List.takeWhile_cons_of_neg (by rw [hc]; exact Bool.false_ne_true)] at h
      cases h

theorem Numeral.isDigit (h : Numeral negative (c :: s) n r) : c.isDigit = true := by
  cases h with
  | whole hwhole => exact isDigit_of_wholeDigits hwhole
  | decimal hwhole => exact isDigit_of_wholeDigits hwhole

/-- A numeral is read in one way. -/
theorem Numeral.unique (h : Numeral negative s n r) (h' : Numeral negative s n' r') :
    n = n' ∧ r = r' := by
  cases h with
  | whole hwhole hfraction hexponent =>
      cases h' with
      | whole hwhole' =>
          rw [hwhole] at hwhole'
          cases hwhole'
          exact ⟨rfl, rfl⟩
      | decimal hwhole' hfraction' hexponent' hpart =>
          -- the same digits have a fraction or an exponent after them, or they do not
          rw [hwhole] at hwhole'
          cases hwhole'
          rw [hfraction] at hfraction'
          cases hfraction'
          rw [hexponent] at hexponent'
          cases hexponent'
          simp at hpart
  | decimal hwhole hfraction hexponent hpart =>
      cases h' with
      | whole hwhole' hfraction' hexponent' =>
          rw [hwhole] at hwhole'
          cases hwhole'
          rw [hfraction] at hfraction'
          cases hfraction'
          rw [hexponent] at hexponent'
          cases hexponent'
          simp at hpart
      | decimal hwhole' hfraction' hexponent' =>
          rw [hwhole] at hwhole'
          cases hwhole'
          rw [hfraction] at hfraction'
          cases hfraction'
          rw [hexponent] at hexponent'
          cases hexponent'
          exact ⟨rfl, rfl⟩

/-- Neither space nor the end of an array or object starts a value. -/
theorem Value.head_ne (h : Value (c :: s) v r) :
    isSpace c = false ∧ c ≠ ']' ∧ c ≠ '\x7d' := by
  cases h with
  | number h =>
      have hdigit := h.isDigit
      refine ⟨Bool.eq_false_iff.mpr fun hc => ?_, ?_, ?_⟩
      · unfold isSpace at hc
        simp only [Bool.or_eq_true, beq_iff_eq] at hc
        obtain ((rfl | rfl) | rfl) | rfl := hc
        all_goals exact absurd hdigit (by decide)
      all_goals
        rintro rfl
        exact absurd hdigit (by decide)
  | _ => decide

/-- There is no space to skip in front of a value. -/
theorem Value.skipSpace_eq (h : Value s v r) : skipSpace s = s := by
  cases s with
  | nil => rfl
  | cons c s => exact List.dropWhile_cons_of_neg (by rw [h.head_ne.1]; exact Bool.false_ne_true)

theorem Items.skipSpace_eq {vs : List Json} (h : Items s vs r) : skipSpace s = s := by
  cases h with
  | last h => exact h.skipSpace_eq
  | more h => exact h.skipSpace_eq

/-- Where there are items, an array does not end. -/
theorem Items.not_close {vs : List Json} (h : Items (']' :: s) vs r) : False := by
  cases h with
  | last h => exact h.head_ne.2.1 rfl
  | more h => exact h.head_ne.2.1 rfl

theorem Fields.not_close {fs : List (String × Json)} (h : Fields ('\x7d' :: s) fs r) : False := by
  cases h with
  | last h => cases h
  | more h => cases h

mutual

/-- A value is read in one way: the first character decides the rule. -/
theorem Value.unique : {s r r' : List Char} → {v v' : Json} → Value s v r → Value s v' r' →
    v = v' ∧ r = r'
  | _, _, _, _, _, .null _, h' => by
      cases h' with
      | null => exact ⟨rfl, rfl⟩
      | number h' => exact absurd h'.isDigit (by decide)
  | _, _, _, _, _, .yes _, h' => by
      cases h' with
      | yes => exact ⟨rfl, rfl⟩
      | number h' => exact absurd h'.isDigit (by decide)
  | _, _, _, _, _, .no _, h' => by
      cases h' with
      | no => exact ⟨rfl, rfl⟩
      | number h' => exact absurd h'.isDigit (by decide)
  | _, _, _, _, _, .number h, h' => by
      cases h' with
      | number h' =>
          obtain ⟨rfl, rfl⟩ := h.unique h'
          exact ⟨rfl, rfl⟩
      | _ => exact absurd h.isDigit (by decide)
  -- the first character tells the kind of a value; only a list or an object that closes at
  -- once has to be told apart from one with content
  | _, _, _, _, _, .negative h, h' => by
      cases h' with
      | number h' => exact absurd h'.isDigit (by decide)
      | negative h' =>
          obtain ⟨rfl, rfl⟩ := h.unique h'
          exact ⟨rfl, rfl⟩
  | _, _, _, _, _, .string h, h' => by
      cases h' with
      | number h' => exact absurd h'.isDigit (by decide)
      | string h' =>
          obtain ⟨rfl, rfl⟩ := h.unique h'
          exact ⟨rfl, rfl⟩
  | _, _, _, _, _, .noItems h, h' => by
      cases h' with
      | number h' => exact absurd h'.isDigit (by decide)
      | noItems h' =>
          rw [h] at h'
          cases h'
          exact ⟨rfl, rfl⟩
      | items h' =>
          rw [h] at h'
          exact h'.not_close.elim
  | _, _, _, _, _, .items h, h' => by
      cases h' with
      | number h' => exact absurd h'.isDigit (by decide)
      | noItems h' =>
          rw [h'] at h
          exact h.not_close.elim
      | items h' =>
          obtain ⟨rfl, rfl⟩ := Items.unique h h'
          exact ⟨rfl, rfl⟩
  | _, _, _, _, _, .noFields h, h' => by
      cases h' with
      | number h' => exact absurd h'.isDigit (by decide)
      | noFields h' =>
          rw [h] at h'
          cases h'
          exact ⟨rfl, rfl⟩
      | fields h' =>
          rw [h] at h'
          exact h'.not_close.elim
  | _, _, _, _, _, .fields h, h' => by
      cases h' with
      | number h' => exact absurd h'.isDigit (by decide)
      | noFields h' =>
          rw [h'] at h
          exact h.not_close.elim
      | fields h' =>
          obtain ⟨rfl, rfl⟩ := Fields.unique h h'
          exact ⟨rfl, rfl⟩

/-- Items are read in one way: after each stands a comma or the bracket. -/
theorem Items.unique : {s r r' : List Char} → {vs vs' : List Json} → Items s vs r →
    Items s vs' r' → vs = vs' ∧ r = r'
  | _, _, _, _, _, .last h hend, h' => by
      cases h' with
      | last h' hend' =>
          obtain ⟨rfl, rfl⟩ := Value.unique h h'
          rw [hend] at hend'
          cases hend'
          exact ⟨rfl, rfl⟩
      -- after the item stands a bracket in one reading and a comma in the other
      | more h' hcomma =>
          obtain ⟨rfl, rfl⟩ := Value.unique h h'
          rw [hend] at hcomma
          cases hcomma
  | _, _, _, _, _, .more h hcomma tail, h' => by
      cases h' with
      | last h' hend =>
          obtain ⟨rfl, rfl⟩ := Value.unique h h'
          rw [hend] at hcomma
          cases hcomma
      | more h' hcomma' tail' =>
          obtain ⟨rfl, rfl⟩ := Value.unique h h'
          rw [hcomma] at hcomma'
          cases hcomma'
          obtain ⟨rfl, rfl⟩ := Items.unique tail tail'
          exact ⟨rfl, rfl⟩

/-- Fields are read in one way: after each stands a comma or the brace. -/
theorem Fields.unique : {s r r' : List Char} → {fs fs' : List (String × Json)} → Fields s fs r →
    Fields s fs' r' → fs = fs' ∧ r = r'
  | _, _, _, _, _, .last h hend, h' => by
      cases h' with
      | last h' hend' =>
          obtain ⟨rfl, rfl⟩ := Field.unique h h'
          rw [hend] at hend'
          cases hend'
          exact ⟨rfl, rfl⟩
      | more h' hcomma =>
          obtain ⟨rfl, rfl⟩ := Field.unique h h'
          rw [hend] at hcomma
          cases hcomma
  | _, _, _, _, _, .more h hcomma tail, h' => by
      cases h' with
      | last h' hend =>
          obtain ⟨rfl, rfl⟩ := Field.unique h h'
          rw [hend] at hcomma
          cases hcomma
      | more h' hcomma' tail' =>
          obtain ⟨rfl, rfl⟩ := Field.unique h h'
          rw [hcomma] at hcomma'
          cases hcomma'
          obtain ⟨rfl, rfl⟩ := Fields.unique tail tail'
          exact ⟨rfl, rfl⟩

theorem Field.unique : {s r r' : List Char} → {f f' : String × Json} → Field s f r →
    Field s f' r' → f = f' ∧ r = r'
  | _, _, _, _, _, .mk hkey hcolon hvalue, .mk hkey' hcolon' hvalue' => by
      obtain ⟨rfl, rfl⟩ := hkey.unique hkey'
      rw [hcolon] at hcolon'
      cases hcolon'
      obtain ⟨rfl, rfl⟩ := Value.unique hvalue hvalue'
      exact ⟨rfl, rfl⟩

end

end Grammar

/-- A text spells a value if that is all there is in it, apart from space around it. -/
def Spells (text : String) (v : Json) : Prop :=
  ∃ r, Grammar.Value (skipSpace text.toList) v r ∧ skipSpace r = []

/-- **A text spells at most one value.** -/
theorem Spells.unique {text : String} {v v' : Json} (h : Spells text v) (h' : Spells text v') :
    v = v' := by
  obtain ⟨r, hvalue, -⟩ := h
  obtain ⟨r', hvalue', -⟩ := h'
  exact (hvalue.unique hvalue').1

end RoundTrip.Json
