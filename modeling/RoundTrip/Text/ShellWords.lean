/-! # Shell words

    A command is kept as one text and cut into words by the quoting rules of a
    shell.  Words are separated by spaces, tabs and line ends.  Between single
    quotes every character stands for itself.  Between double quotes a backslash
    escapes the double quote and the backslash and otherwise stands for itself;
    outside of quotes it makes the next character an ordinary one.  Pieces that
    touch make one word, and a pair of quotes makes a word even if it is empty.

    `split` reads a command and `join` writes one. -/

namespace RoundTrip.Text.ShellWords

/-- Why a command cannot be cut into words. -/
inductive QuotingError where
  /-- The command ends inside quotes. -/
  | noClosingQuotation
  /-- The command ends after a backslash. -/
  | noEscapedCharacter
  deriving DecidableEq, Repr

/-- The text of a quoting error. -/
def QuotingError.message : QuotingError → String
  | .noClosingQuotation => "No closing quotation"
  | .noEscapedCharacter => "No escaped character"

/-- Whether a character separates words. -/
def isSeparator (c : Char) : Bool :=
  c == ' ' || c == '\t' || c == '\r' || c == '\n'

/-- Where the reader stands. -/
inductive Mode where
  /-- Between two words. -/
  | between
  /-- In a word, outside of quotes. -/
  | bare
  | singleQuoted
  | doubleQuoted
  /-- After a backslash outside of quotes. -/
  | escaped
  /-- After a backslash between double quotes. -/
  | escapedInQuotes
  deriving DecidableEq, Repr

/-- What is kept of a backslash between double quotes and the character after
    it. -/
def unescapeInQuotes (c : Char) : List Char :=
  if c = '"' ∨ c = '\\' then [c] else ['\\', c]

/-- Reads the words of a command, standing in a mode with the characters `word`
    of the current word already read. -/
def scan : Mode → (word : List Char) → List Char → Except QuotingError (List (List Char))
  | .between, _, [] => .ok []
  | .bare, word, [] => .ok [word]
  | .singleQuoted, _, [] => .error .noClosingQuotation
  | .doubleQuoted, _, [] => .error .noClosingQuotation
  | .escaped, _, [] => .error .noEscapedCharacter
  | .escapedInQuotes, _, [] => .error .noEscapedCharacter
  | .between, _, c :: r =>
      if isSeparator c then scan .between [] r
      else if c = '\'' then scan .singleQuoted [] r
      else if c = '"' then scan .doubleQuoted [] r
      else if c = '\\' then scan .escaped [] r
      else scan .bare [c] r
  | .bare, word, c :: r =>
      if isSeparator c then (scan .between [] r).map (word :: ·)
      else if c = '\'' then scan .singleQuoted word r
      else if c = '"' then scan .doubleQuoted word r
      else if c = '\\' then scan .escaped word r
      else scan .bare (word ++ [c]) r
  | .singleQuoted, word, c :: r =>
      if c = '\'' then scan .bare word r else scan .singleQuoted (word ++ [c]) r
  | .doubleQuoted, word, c :: r =>
      if c = '"' then scan .bare word r
      else if c = '\\' then scan .escapedInQuotes word r
      else scan .doubleQuoted (word ++ [c]) r
  | .escaped, word, c :: r => scan .bare (word ++ [c]) r
  | .escapedInQuotes, word, c :: r => scan .doubleQuoted (word ++ unescapeInQuotes c) r

/-- The words of a command. -/
def split (command : String) : Except QuotingError (List String) :=
  (scan .between [] command.toList).map (·.map String.ofList)

/-- Whether a character needs no quotes. -/
def isPlain (c : Char) : Bool :=
  c.isAlphanum || "_@%+=:,./-".toList.contains c

/-- One character between single quotes.  The single quote itself leaves them
    and is written between double quotes. -/
def quoteChar (c : Char) : List Char :=
  if c = '\'' then ['\'', '"', '\'', '"', '\''] else [c]

/-- The quoted form of a word. -/
def quote (word : List Char) : List Char :=
  if word ≠ [] ∧ word.all isPlain then word
  else '\'' :: (word.flatMap quoteChar ++ ['\''])

/-- The command that consists of words: their quoted forms with spaces
    between them. -/
def join (words : List String) : String :=
  String.ofList ([' '].intercalate (words.map fun w => quote w.toList))

end RoundTrip.Text.ShellWords
