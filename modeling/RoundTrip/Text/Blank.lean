/-! # Blanks, words and trimming

    Texts are worked on as lists of characters.  A *blank* separates words; a
    *word* is a longest stretch without a blank.

    The route: `fields p` cuts a list at every element that satisfies `p`, and
    the words of a text are its non-empty fields between blanks.  `trim` and
    `trimEnd` drop blanks at the ends and touch nothing else. -/

namespace RoundTrip.Text

/-- The white-space property.  Zero-width spaces and the byte-order mark do not
    have it. -/
def isSpace (c : Char) : Bool :=
  let n := c.toNat
  (0x09 ≤ n && n ≤ 0x0D) || n == 0x20 || n == 0x85 || n == 0xA0 || n == 0x1680
    || (0x2000 ≤ n && n ≤ 0x200A) || n == 0x2028 || n == 0x2029 || n == 0x202F || n == 0x205F
    || n == 0x3000

/-- A blank is white space or one of the four information separators: a character
    of the bidirectional classes B, S and WS or of the category Zs. -/
def isBlank (c : Char) : Bool :=
  isSpace c || (0x1C ≤ c.toNat && c.toNat ≤ 0x1F)

/-- The stretches between the elements that satisfy `p`.  There is always one
    more of them than there are such elements. -/
def fields {α : Type} (p : α → Bool) : List α → List (List α)
  | [] => [[]]
  | c :: r => if p c then [] :: fields p r else (fields p r).modifyHead (c :: ·)

/-- The words of a text, in order. -/
def words (s : List Char) : List (List Char) :=
  (fields isBlank s).filter (! ·.isEmpty)

/-- Drops the longest end whose elements all satisfy `p`. -/
def dropEndWhile {α : Type} (p : α → Bool) (s : List α) : List α :=
  (s.reverse.dropWhile p).reverse

/-- A text without the blanks at its end. -/
def trimEnd (s : String) : String :=
  String.ofList (dropEndWhile isBlank s.toList)

/-- A text without what satisfies `p` at its two ends. -/
def trimWhile (p : Char → Bool) (s : String) : String :=
  String.ofList (dropEndWhile p (s.toList.dropWhile p))

/-- A text without the blanks at its two ends. -/
def trim (s : String) : String := trimWhile isBlank s

/-- A text without the white space at its two ends. -/
def trimSpace (s : String) : String := trimWhile isSpace s

/-- A text without the line feeds at its end. -/
def trimLineFeeds (s : String) : String :=
  String.ofList (dropEndWhile (· == '\n') s.toList)

/-- The words of a text as texts. -/
def wordsOf (s : String) : List String :=
  (words s.toList).map String.ofList

theorem fields_ne_nil {α : Type} (p : α → Bool) (s : List α) : fields p s ≠ [] := by
  induction s with
  | nil => simp [fields]
  | cons c r ih =>
      rw [fields]
      split
      · simp
      · cases h : fields p r with
        | nil => exact absurd h ih
        | cons f fs => simp

end RoundTrip.Text
