import RoundTrip.Tool.Comparator

/-! # Quoted words are read back

    A quoted word leaves the reader outside of quotes with the characters of the word
    (`ShellWords.scan_quote`): a plain word is read as it stands, and in any other a single
    quote takes the reader out of the quotes and back into them.  The space after a word
    cuts it off, so by induction a joined command is read as its words
    (`ShellWords.split_join`), and a comparison is started with them and with the two files:
    **`Comparator.argv_join`** -/

namespace RoundTrip

namespace Text.ShellWords

/-! ## Plain words -/

/-- A character that needs no quotes means nothing to the reader. -/
theorem isPlain_not_special {c : Char} (h : isPlain c = true) :
    isSeparator c = false ∧ c ≠ '\'' ∧ c ≠ '"' ∧ c ≠ '\\' := by
  refine ⟨Bool.eq_false_iff.mpr fun hc => ?_, ?_, ?_, ?_⟩
  · unfold isSeparator at hc
    simp only [Bool.or_eq_true, beq_iff_eq] at hc
    obtain ((rfl | rfl) | rfl) | rfl := hc
    all_goals exact absurd h (by decide)
  all_goals
    rintro rfl
    exact absurd h (by decide)

/-- In a word a plain character is taken as it is. -/
theorem scan_bare_plain {c : Char} (h : isPlain c = true) (word rest : List Char) :
    scan .bare word (c :: rest) = scan .bare (word ++ [c]) rest := by
  obtain ⟨hseparator, hsingle, hdouble, hescape⟩ := isPlain_not_special h
  rw [scan, if_neg (by rw [hseparator]; exact Bool.false_ne_true), if_neg hsingle,
    if_neg hdouble, if_neg hescape]

/-- Between words it starts one. -/
theorem scan_between_plain {c : Char} (h : isPlain c = true) (rest : List Char) :
    scan .between [] (c :: rest) = scan .bare [c] rest := by
  obtain ⟨hseparator, hsingle, hdouble, hescape⟩ := isPlain_not_special h
  rw [scan, if_neg (by rw [hseparator]; exact Bool.false_ne_true), if_neg hsingle,
    if_neg hdouble, if_neg hescape]

theorem scan_bare_append {cs : List Char} (h : cs.all isPlain = true) (word rest : List Char) :
    scan .bare word (cs ++ rest) = scan .bare (word ++ cs) rest := by
  induction cs generalizing word with
  | nil => rw [List.append_nil, List.nil_append]
  | cons c cs ih =>
      rw [List.all_cons, Bool.and_eq_true] at h
      rw [List.cons_append, scan_bare_plain h.1, ih h.2, List.append_assoc, List.singleton_append]

/-! ## Words between quotes -/

/-- One character of a quoted word: the single quote closes the quotes, stands between double
    quotes, and opens the quotes again. -/
theorem scan_quoteChar (c : Char) (word rest : List Char) :
    scan .singleQuoted word (quoteChar c ++ rest) = scan .singleQuoted (word ++ [c]) rest := by
  unfold quoteChar
  by_cases hc : c = '\''
  · subst hc
    rw [if_pos rfl]
    show scan .singleQuoted word ('\'' :: '"' :: '\'' :: '"' :: '\'' :: rest) = _
    calc scan .singleQuoted word ('\'' :: '"' :: '\'' :: '"' :: '\'' :: rest)
        = scan .bare word ('"' :: '\'' :: '"' :: '\'' :: rest) := rfl
      _ = scan .doubleQuoted word ('\'' :: '"' :: '\'' :: rest) := rfl
      _ = scan .doubleQuoted (word ++ ['\'']) ('"' :: '\'' :: rest) := rfl
      _ = scan .bare (word ++ ['\'']) ('\'' :: rest) := rfl
      _ = scan .singleQuoted (word ++ ['\'']) rest := rfl
  · rw [if_neg hc]
    show scan .singleQuoted word (c :: rest) = _
    rw [scan, if_neg hc]

theorem scan_flatMap_quoteChar (cs word rest : List Char) :
    scan .singleQuoted word (cs.flatMap quoteChar ++ rest)
      = scan .singleQuoted (word ++ cs) rest := by
  induction cs generalizing word with
  | nil => rw [List.append_nil, List.flatMap_nil, List.nil_append]
  | cons c cs ih =>
      rw [List.flatMap_cons, List.append_assoc, scan_quoteChar, ih, List.append_assoc,
        List.singleton_append]

/-! ## Commands -/

/-- After the quoted form of a word the reader stands outside of quotes and has read the
    word, and no word is empty to it. -/
theorem scan_quote (word rest : List Char) :
    scan .between [] (quote word ++ rest) = scan .bare word rest := by
  unfold quote
  by_cases hplain : word ≠ [] ∧ word.all isPlain
  · rw [if_pos hplain]
    obtain ⟨hne, hall⟩ := hplain
    cases word with
    | nil => exact absurd rfl hne
    | cons c cs =>
        rw [List.all_cons, Bool.and_eq_true] at hall
        rw [List.cons_append, scan_between_plain hall.1, scan_bare_append hall.2]
        rfl
  · rw [if_neg hplain]
    calc scan .between [] ('\'' :: (word.flatMap quoteChar ++ ['\'']) ++ rest)
        = scan .singleQuoted [] (word.flatMap quoteChar ++ ('\'' :: rest)) := by
          rw [List.cons_append, List.append_assoc]
          rfl
      _ = scan .singleQuoted word ('\'' :: rest) := by
          rw [scan_flatMap_quoteChar, List.nil_append]
      _ = scan .bare word rest := by rw [scan, if_pos rfl]

/-- The words of a joined command. -/
theorem scan_intercalate_quote (ws : List (List Char)) :
    scan .between [] ([' '].intercalate (ws.map quote)) = .ok ws := by
  induction ws with
  | nil => rfl
  | cons w rest ih =>
      cases rest with
      | nil =>
          have h := scan_quote w []
          rw [List.append_nil] at h
          rw [List.map_singleton, List.intercalate_singleton, h, scan]
      | cons v vs =>
          -- the space after a quoted word is outside of quotes, so the word ends there
          have hjoined : [' '].intercalate ((w :: v :: vs).map quote)
              = quote w ++ (' ' :: [' '].intercalate ((v :: vs).map quote)) := by
            rw [List.map_cons, List.map_cons, List.intercalate_cons_cons, List.append_assoc]
            rfl
          rw [hjoined, scan_quote, scan, if_pos (by decide), ih]
          rfl

/-- A joined command is cut into the words it was made of. -/
theorem split_join (ws : List String) : split (join ws) = .ok ws := by
  have hquoted : (ws.map fun w => quote w.toList) = (ws.map String.toList).map quote := by
    rw [List.map_map]
    rfl
  have hback : (ws.map String.toList).map String.ofList = ws := by
    have hid : String.ofList ∘ String.toList = id := funext fun _ => String.ofList_toList
    rw [List.map_map, hid, List.map_id]
  unfold split join
  rw [String.toList_ofList, hquoted, scan_intercalate_quote]
  show Except.ok ((ws.map String.toList).map String.ofList) = _
  rw [hback]

end Text.ShellWords

/-- **A quoted command keeps its words.**  Where the words of a comparison are quoted and
    joined into one text, the comparison is started with exactly these words and the two
    files: whatever characters the words are made of, and whether or not they are empty. -/
theorem Comparator.argv_join (ws : List String) (limit : Option Number)
    (expected obtained : Path) :
    (Comparator.mk (Text.ShellWords.join ws) limit).argv expected obtained
      = .ok (ws ++ [expected.text, obtained.text]) := by
  unfold argv
  rw [Text.ShellWords.split_join]
  rfl

/-- A word with a space, one with both kinds of quotes and an empty one. -/
example :
    (Comparator.mk (Text.ShellWords.join ["diff", "a b", "it's \"so\"\\", ""]) none).words
      = "diff 'a b' 'it'\"'\"'s \"so\"\\' ''" := by decide +kernel

end RoundTrip
