import RoundTrip.Proofs.Resolution

/-! # Words between blanks

    A blank cuts a text in two, and the words of the text are those of its two parts
    (`words_append_cons`).  Everything else about words follows: a text has one exactly if it
    holds something other than blanks (`wordsOf_ne_nil_iff`), and words that are laid out with
    blanks between them are read back: **`Layout.wordsOf_eq`**. -/

namespace RoundTrip.Text

variable {c : Char} {s t w : List Char}

/-- A blank ends a word, so the words before it and after it are read apart. -/
theorem words_append_cons (s t : List Char) (hc : isBlank c = true) :
    words (s ++ c :: t) = words s ++ words t := by
  unfold words
  rw [fields_append_cons s t hc, List.filter_append]

/-- A blank in front of a text belongs to no word. -/
theorem words_cons_blank (t : List Char) (hc : isBlank c = true) : words (c :: t) = words t :=
  words_append_cons [] t hc

/-- Nor do any number of blanks. -/
theorem words_append_left (t : List Char) (hs : ∀ c ∈ s, isBlank c = true) :
    words (s ++ t) = words t := by
  induction s with
  | nil => rfl
  | cons c s ih =>
      rw [List.cons_append, words_cons_blank _ (hs c List.mem_cons_self)]
      exact ih fun x hx => hs x (List.mem_cons_of_mem _ hx)

/-- Blanks hold no word. -/
theorem words_eq_nil (hs : ∀ c ∈ s, isBlank c = true) : words s = [] := by
  have h := words_append_left [] hs
  rwa [List.append_nil] at h

/-- Nor do blanks behind a text. -/
theorem words_append_right (s : List Char) (ht : ∀ c ∈ t, isBlank c = true) :
    words (s ++ t) = words s := by
  cases t with
  | nil => rw [List.append_nil]
  | cons c t =>
      obtain ⟨hc, ht⟩ := List.forall_mem_cons.mp ht
      rw [words_append_cons s t hc, words_eq_nil ht, List.append_nil]

/-- A stretch without blanks is one word. -/
theorem words_eq_singleton (hne : w ≠ []) (hw : ∀ c ∈ w, isBlank c = false) : words w = [w] := by
  unfold words
  rw [fields_eq_singleton hw, List.filter_cons_of_pos (by simpa using hne), List.filter_nil]

/-- A character that is no blank belongs to a word. -/
theorem words_ne_nil (hc : c ∈ s) (hblank : isBlank c = false) : words s ≠ [] := by
  induction s with
  | nil => exact absurd hc List.not_mem_nil
  | cons x s ih =>
      cases hx : isBlank x with
      | true =>
          rw [words_cons_blank s hx]
          refine ih ((List.mem_cons.mp hc).resolve_left ?_)
          rintro rfl
          rw [hblank] at hx
          cases hx
      | false =>
          intro hnil
          unfold words at hnil
          rw [fields, if_neg (by simp [hx])] at hnil
          -- the first field starts with the character
          cases hfields : fields isBlank s with
          | nil => exact fields_ne_nil isBlank s hfields
          | cons f fs =>
              rw [hfields, List.modifyHead_cons, List.filter_cons_of_pos rfl] at hnil
              cases hnil

/-- **A text has a word exactly if it holds something other than blanks.** -/
theorem wordsOf_ne_nil_iff (s : String) :
    wordsOf s ≠ [] ↔ ∃ c ∈ s.toList, isBlank c = false := by
  unfold wordsOf
  rw [Ne, List.map_eq_nil_iff]
  constructor
  · intro hne
    refine Classical.byContradiction fun hall => hne (words_eq_nil fun c hc => ?_)
    exact eq_true_of_ne_false fun hblank => hall ⟨c, hc, hblank⟩
  · rintro ⟨c, hc, hblank⟩
    exact words_ne_nil hc hblank

/-! ## Words that are laid out -/

/-- A text of nothing but blanks, or of nothing at all. -/
def IsBlanks (s : String) : Prop := ∀ c ∈ s.toList, isBlank c = true

-- the instance is named, for another one goes through all characters there are
instance : DecidablePred IsBlanks :=
  fun s => List.decidableBAll (fun c => isBlank c = true) s.toList

/-- A text that can stand as a word. -/
structure IsWord (s : String) : Prop where
  notEmpty : s ≠ ""
  noBlank : ∀ c ∈ s.toList, isBlank c = false

/-- Texts stand one after the other, in order, with blanks between any two. -/
inductive Layout : List String → String → Prop where
  | single (n : String) : Layout [n] n
  | cons {names : List String} {text : String} (n gap : String) (hgap : gap ≠ "")
      (hblanks : IsBlanks gap) (rest : Layout names text) :
      Layout (n :: names) (n ++ gap ++ text)

variable {names : List String} {n text lead trail : String}

theorem IsWord.words_eq (h : IsWord n) : words n.toList = [n.toList] :=
  words_eq_singleton (fun hnil => h.notEmpty (String.toList_eq_nil_iff.mp hnil)) h.noBlank

/-- A text in this layout is read as its names. -/
theorem Layout.words_eq (h : Layout names text) (hnames : ∀ n ∈ names, IsWord n) :
    words text.toList = names.map String.toList := by
  induction h with
  | single n => exact (hnames n List.mem_cons_self).words_eq
  | cons n gap hgap hblanks rest ih =>
      obtain ⟨hn, hrest⟩ := List.forall_mem_cons.mp hnames
      obtain ⟨c, gap', hc⟩ :=
        List.exists_cons_of_ne_nil fun hnil => hgap (String.toList_eq_nil_iff.mp hnil)
      unfold IsBlanks at hblanks
      rw [hc] at hblanks
      obtain ⟨hblank, hmore⟩ := List.forall_mem_cons.mp hblanks
      rw [String.toList_append, String.toList_append, hc, List.append_assoc, List.cons_append,
        words_append_cons _ _ hblank, hn.words_eq, words_append_left _ hmore, ih hrest]
      rfl

/-- **Words that are laid out are read back**, in order and with repetitions, whatever blanks
    stand between them, before them and behind them. -/
theorem Layout.wordsOf_eq (h : Layout names text) (hnames : ∀ n ∈ names, IsWord n)
    (hlead : IsBlanks lead) (htrail : IsBlanks trail) :
    wordsOf (lead ++ text ++ trail) = names := by
  unfold wordsOf
  rw [String.toList_append, String.toList_append, words_append_right _ htrail,
    words_append_left _ hlead, h.words_eq hnames, List.map_map]
  have hback : String.ofList ∘ String.toList = id := funext fun _ => String.ofList_toList
  rw [hback, List.map_id]

end RoundTrip.Text
