import RoundTrip.CommandLine

/-! # The order of a command line

    A command line is put together from items: flags, report options with their value in the
    same argument or in the next one, and a mode word.  The first pass sees the tokens of each
    item and nothing else (`classify_words`).  The second one carries out one item after the
    other (`interpret_tokens`): the value of a report option stands right behind it, so the mode
    word is never taken for one, and a mode word stands alone, so no value is ever taken for the
    mode.  What the items say together (`said`) depends on their order only in which report
    option is the last one: **`order_does_not_matter`**. -/

namespace RoundTrip.CommandLine

/-! ## Items -/

/-- A part of a command line that says one thing. -/
inductive Item where
  | showErrors
  | stopOnFailure
  | verbose
  /-- The report option with its value in the next argument. -/
  | report (path : String)
  /-- The report option with its value behind an equals sign. -/
  | reportJoined (path : String)
  | mode (word : String)
  deriving DecidableEq, Repr

/-- An argument looks like an option. -/
def Dashed (arg : String) : Prop := arg.toList.head? = some '-'

instance : DecidablePred Dashed := fun arg =>
  inferInstanceAs (Decidable (arg.toList.head? = some '-'))

namespace Item

/-- The arguments of an item. -/
def words : Item → List String
  | .showErrors => ["--show-errors"]
  | .stopOnFailure => ["--stop-on-failure"]
  | .verbose => ["--verbose"]
  | .report path => ["--report", path]
  | .reportJoined path => ["--report=" ++ path]
  | .mode word => [word]

/-- What the arguments of an item are. -/
def tokens : Item → List Token
  | .showErrors => [.choice .showErrors none]
  | .stopOnFailure => [.choice .stopOnFailure none]
  | .verbose => [.choice .verbose none]
  | .report path => [.choice .report none, .word path]
  | .reportJoined path => [.choice .report (some path)]
  | .mode word => [.word word]

/-- The mode word of an item. -/
def mode? : Item → Option String
  | .mode word => some word
  | _ => none

/-- The value of a report option. -/
def report? : Item → Option String
  | .report path => some path
  | .reportJoined path => some path
  | _ => none

/-- What stands as an argument of its own does not look like an option. -/
def Plain : Item → Prop
  | .report path => ¬ Dashed path
  | .mode word => ¬ Dashed word
  | _ => True

instance : DecidablePred Plain
  | .report path => inferInstanceAs (Decidable (¬ Dashed path))
  | .mode word => inferInstanceAs (Decidable (¬ Dashed word))
  | .showErrors => .isTrue trivial
  | .stopOnFailure => .isTrue trivial
  | .verbose => .isTrue trivial
  | .reportJoined _ => .isTrue trivial

/-- Adds what an item says to what was said before. -/
def apply (a : Arguments) : Item → Arguments
  | .showErrors => { a with showErrors := true }
  | .stopOnFailure => { a with stopOnFailure := true }
  | .verbose => { a with verbose := true }
  | .report path => { a with report := some (Path.ofString path) }
  | .reportJoined path => { a with report := some (Path.ofString path) }
  | .mode word => { a with mode := some word }

end Item

/-- What some items say together: the mode word, the flags that occur, and the value of the last
    report option. -/
def said (items : List Item) : Arguments where
  mode := (items.filterMap Item.mode?).getLast?
  showErrors := decide (.showErrors ∈ items)
  stopOnFailure := decide (.stopOnFailure ∈ items)
  report := (items.filterMap Item.report?).getLast?.map Path.ofString
  verbose := decide (.verbose ∈ items)

variable {arg path : String} {args : List String} {i : Item} {items items' : List Item}
  {a : Arguments}

/-! ## The first pass -/

/-- An argument that does not look like an option is a word. -/
theorem classifyOne_of_not_dashed (h : ¬ Dashed arg) : classifyOne arg = .ok (.word arg) := by
  unfold Dashed at h
  unfold classifyOne
  split
  · rfl
  · rfl
  · rename_i second rest harg
    rw [harg] at h
    exact absurd rfl h
  · rfl

/-- It is not the mark after which everything is a word. -/
theorem ne_separator_of_not_dashed (h : ¬ Dashed arg) : arg ≠ "--" := by
  rintro rfl
  exact h rfl

/-- No spelling of an option holds an equals sign. -/
theorem choice?_eq_none (h : '=' ∈ arg.toList) : choice? arg = none := by
  have hspellings : ∀ spelling ∈ spellings, '=' ∉ spelling.1.toList := by decide
  have hnone : spellings.find? (fun spelling => spelling.1 = arg) = none := by
    rw [List.find?_eq_none]
    intro spelling hspelling hsame
    exact hspellings spelling hspelling (of_decide_eq_true hsame ▸ h)
  unfold choice?
  rw [hnone]
  rfl

/-- A text is parted at its first equals sign. -/
theorem splitValue_eq {front value : List Char} (harg : arg.toList = front ++ '=' :: value)
    (hfront : '=' ∉ front) :
    splitValue arg = (String.ofList front, some (String.ofList value)) := by
  have hne : ∀ c ∈ front, (c != '=') = true := by
    intro c hc
    exact bne_iff_ne.mpr fun h => hfront (h ▸ hc)
  have hbefore : (front ++ '=' :: value).takeWhile (· != '=') = front := by
    rw [List.takeWhile_append_of_pos hne, List.takeWhile_cons_of_neg (by decide), List.append_nil]
  unfold splitValue
  rw [harg]
  dsimp only
  rw [hbefore, List.drop_left]

/-- A value behind an equals sign may be any text. -/
theorem classifyOne_reportJoined (path : String) :
    classifyOne ("--report=" ++ path) = .ok (.choice .report (some path)) := by
  have hchars : ("--report=" ++ path).toList = "--report".toList ++ '=' :: path.toList := by
    rw [String.toList_append]
    rfl
  have hvalue : splitValue ("--report=" ++ path) = ("--report", some path) := by
    rw [splitValue_eq hchars (by decide), String.ofList_toList, String.ofList_toList]
  have hoption : choice? ("--report=" ++ path) = none :=
    choice?_eq_none (hchars ▸ List.mem_append_right _ List.mem_cons_self)
  have hdashes : ("--report=" ++ path).toList
      = '-' :: '-' :: ("report".toList ++ '=' :: path.toList) := hchars
  unfold classifyOne
  rw [hdashes, hoption]
  show (if '-' = '-' then classifyLong ("--report=" ++ path)
    else .ok (classifyShort ("--report=" ++ path))) = _
  rw [if_pos rfl, classifyLong, hvalue]
  rfl

theorem classify_cons {t : Token} (harg : arg ≠ "--") (h : classifyOne arg = .ok t) :
    classify (arg :: args) = (t :: ·) <$> classify args := by
  rw [classify, if_neg harg, h]
  cases classify args <;> rfl

/-- **The first pass sees the tokens of each item.** -/
theorem classify_words (h : i.Plain) (args : List String) :
    classify (i.words ++ args) = (i.tokens ++ ·) <$> classify args := by
  cases i with
  | showErrors => exact classify_cons (by decide) rfl
  | stopOnFailure => exact classify_cons (by decide) rfl
  | verbose => exact classify_cons (by decide) rfl
  | report path =>
      have hpath : ¬ Dashed path := h
      show classify ("--report" :: path :: args) = _
      rw [classify_cons (by decide) rfl,
        classify_cons (ne_separator_of_not_dashed hpath) (classifyOne_of_not_dashed hpath)]
      cases classify args <;> rfl
  | reportJoined path =>
      refine classify_cons ?_ (classifyOne_reportJoined path)
      intro hsame
      have hlength := congrArg String.length hsame
      rw [String.length_append] at hlength
      have h9 : "--report=".length = 9 := by decide
      have h2 : "--".length = 2 := by decide
      omega
  | mode word =>
      have hword : ¬ Dashed word := h
      exact classify_cons (ne_separator_of_not_dashed hword) (classifyOne_of_not_dashed hword)

/-- So it sees the tokens of all of them. -/
theorem classify_items (h : ∀ i ∈ items, i.Plain) :
    classify (items.flatMap Item.words) = .ok (items.flatMap Item.tokens) := by
  induction items with
  | nil => rfl
  | cons i items ih =>
      rw [List.flatMap_cons, List.flatMap_cons, classify_words (h i List.mem_cons_self),
        ih fun j hj => h j (List.mem_cons_of_mem _ hj)]
      rfl

/-! ## The second pass -/

/-- No item has the mark after which everything is a word. -/
theorem head?_tokens_ne_separator (items : List Item) :
    (items.flatMap Item.tokens).head? ≠ some .separator := by
  cases items with
  | nil => exact nofun
  | cons i items => cases i <;> exact nofun

/-- The first word is the mode. -/
theorem interpret_word {w : String} {extras : List String} {tokens : List Token}
    (hmode : a.mode = none) (htokens : tokens.head? ≠ some .separator) :
    interpret a extras (.word w :: tokens) = interpret { a with mode := some w } extras tokens := by
  have hfirst : a.mode.isNone = true := by
    rw [hmode]
    rfl
  cases tokens with
  | nil => exact if_pos hfirst
  | cons t tokens =>
      cases t with
      | separator => exact absurd rfl htokens
      | _ => exact if_pos hfirst

/-- **The second pass carries out one item after the other**, if there is one mode word at
    most. -/
theorem interpret_tokens
    (h : a.mode.toList.length + (items.filterMap Item.mode?).length ≤ 1) :
    interpret a [] (items.flatMap Item.tokens) = .ok (.run (items.foldl Item.apply a)) := by
  induction items generalizing a with
  | nil => rfl
  | cons i items ih =>
      rw [List.foldl_cons]
      cases i with
      | showErrors => exact ih h
      | stopOnFailure => exact ih h
      | verbose => exact ih h
      | report path => exact ih h
      | reportJoined path => exact ih h
      | mode word =>
          -- one mode word more, so there was none before and none is left
          have hcount : a.mode.toList.length + ((items.filterMap Item.mode?).length + 1) ≤ 1 := h
          have hmode : a.mode = none := by
            cases hm : a.mode with
            | none => rfl
            | some w =>
                rw [hm, Option.toList_some, List.length_singleton] at hcount
                omega
          show interpret a [] (.word word :: items.flatMap Item.tokens) = _
          rw [interpret_word hmode (head?_tokens_ne_separator items)]
          refine ih ?_
          show 1 + (items.filterMap Item.mode?).length ≤ 1
          omega

/-! ## What the items say -/

/-- The last of the later entries counts, and the first entry only if there are none. -/
theorem getLast?_filterMap_cons {α : Type} (f : Item → Option α) (i : Item) (items : List Item) :
    ((i :: items).filterMap f).getLast? = (items.filterMap f).getLast?.or (f i) := by
  cases hi : f i with
  | none => rw [List.filterMap_cons_none hi, Option.or_none]
  | some x =>
      rw [List.filterMap_cons_some hi, List.getLast?_cons]
      cases (items.filterMap f).getLast? <;> rfl

/-- What was said before lasts, unless the items say it again. -/
theorem foldl_apply (items : List Item) (a : Arguments) :
    items.foldl Item.apply a =
      { mode := (said items).mode.or a.mode
        showErrors := a.showErrors || (said items).showErrors
        stopOnFailure := a.stopOnFailure || (said items).stopOnFailure
        report := (said items).report.or a.report
        verbose := a.verbose || (said items).verbose } := by
  induction items generalizing a with
  | nil => simp [said]
  | cons i items ih =>
      rw [List.foldl_cons, ih]
      simp only [said, getLast?_filterMap_cons, Option.map_or, Option.or_assoc, List.mem_cons]
      cases i <;> simp [Item.apply, Item.mode?, Item.report?]

/-- A command line says what its items say. -/
theorem parse_items (hplain : ∀ i ∈ items, i.Plain)
    (hmode : (items.filterMap Item.mode?).length ≤ 1) :
    parse (items.flatMap Item.words) = .ok (.run (said items)) := by
  have hsaid : items.foldl Item.apply Arguments.none = said items := by
    rw [foldl_apply]
    simp [Arguments.none]
  have hcount : Arguments.none.mode.toList.length + (items.filterMap Item.mode?).length ≤ 1 := by
    rwa [show Arguments.none.mode.toList.length = 0 from rfl, Nat.zero_add]
  unfold parse
  rw [classify_items hplain]
  show interpret Arguments.none [] (items.flatMap Item.tokens) = _
  rw [interpret_tokens hcount, hsaid]

/-- Lists with one entry at most have no order. -/
theorem eq_of_perm_of_length_le_one {xs ys : List String} (h : ys.Perm xs)
    (hlength : xs.length ≤ 1) : ys = xs := by
  match xs, hlength with
  | [], _ => exact h.eq_nil
  | [x], _ => exact h.eq_singleton

/-- Items in another order say the same, as long as the report options keep their order. -/
theorem said_of_perm (h : items'.Perm items) (hmode : (items.filterMap Item.mode?).length ≤ 1)
    (hreport : items'.filterMap Item.report? = items.filterMap Item.report?) :
    said items' = said items := by
  have hmodes : items'.filterMap Item.mode? = items.filterMap Item.mode? :=
    eq_of_perm_of_length_le_one (h.filterMap _) hmode
  unfold said
  rw [hmodes, hreport]
  simp only [h.mem_iff]

/-- **The order of a command line does not matter.**  It may hold any flags and report options,
    and one mode word at most, where neither the mode word nor a value in an argument of its own
    looks like an option.  It is read as the mode word, the flags that occur, and the path of the
    last report option.  So it is read alike in any other order that keeps the values of the
    report options in theirs. -/
theorem order_does_not_matter (hplain : ∀ i ∈ items, i.Plain)
    (hmode : (items.filterMap Item.mode?).length ≤ 1) :
    parse (items.flatMap Item.words) = .ok (.run
        { mode := (items.filterMap Item.mode?).getLast?
          showErrors := decide (.showErrors ∈ items)
          stopOnFailure := decide (.stopOnFailure ∈ items)
          report := (items.filterMap Item.report?).getLast?.map Path.ofString
          verbose := decide (.verbose ∈ items) })
      ∧ ∀ items' : List Item, items'.Perm items →
        items'.filterMap Item.report? = items.filterMap Item.report? →
        parse (items'.flatMap Item.words) = parse (items.flatMap Item.words) := by
  refine ⟨parse_items hplain hmode, ?_⟩
  intro items' hperm hreport
  have hplain' : ∀ i ∈ items', i.Plain := fun i hi => hplain i (hperm.mem_iff.mp hi)
  have hmode' : (items'.filterMap Item.mode?).length ≤ 1 := by
    rwa [(hperm.filterMap _).length_eq]
  rw [parse_items hplain' hmode', parse_items hplain hmode, said_of_perm hperm hmode hreport]

/-- A mode word between report options, one of which has the text of a flag for its value. -/
theorem mode_word_between_reports :
    parse ["--report", "a", "ast", "--verbose", "--report=--verbose"] = .ok (.run
        { mode := some "ast"
          showErrors := false
          stopOnFailure := false
          report := some ⟨.here, ["--verbose"]⟩
          verbose := true })
      ∧ parse ["--verbose", "--report", "a", "--report=--verbose", "ast"]
        = parse ["--report", "a", "ast", "--verbose", "--report=--verbose"] := by
  have hplain : ∀ i ∈ [Item.report "a", .mode "ast", .verbose, .reportJoined "--verbose"],
      i.Plain := by decide
  obtain ⟨hread, horder⟩ := order_does_not_matter hplain (by decide)
  exact ⟨hread, horder [.verbose, .report "a", .reportJoined "--verbose", .mode "ast"] (by decide)
    rfl⟩

end RoundTrip.CommandLine
