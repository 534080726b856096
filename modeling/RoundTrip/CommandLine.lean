import RoundTrip.Fault
import RoundTrip.Text.Digit

/-! # The command line

    A command line holds options and at most one mode word, in any order.  Long
    options may be shortened as long as they stay unambiguous, and take a value
    after `=`.  After `--` everything is a word.

    Reading goes in two passes.  `classify` says of each argument what it is; a
    shortened option that could be several is an error at once.  `interpret`
    then goes through the tokens from left to right. -/

namespace RoundTrip.CommandLine

/-- An option of the command line. -/
inductive Choice where
  | help
  | showErrors
  | stopOnFailure
  | report
  | verbose
  deriving DecidableEq, Repr

/-- The spellings of the options. -/
def spellings : List (String × Choice) :=
  [("-h", .help), ("--help", .help), ("--show-errors", .showErrors),
    ("--stop-on-failure", .stopOnFailure), ("--report", .report), ("--verbose", .verbose)]

/-- The name of an option in messages. -/
def Choice.name : Choice → String
  | .help => "-h/--help"
  | .showErrors => "--show-errors"
  | .stopOnFailure => "--stop-on-failure"
  | .report => "--report"
  | .verbose => "--verbose"

/-- What is wrong with a command line. -/
inductive UsageError where
  /-- A shortened option that could be any of these. -/
  | ambiguous (arg : String) (candidates : List String)
  /-- A value for an option that takes none. -/
  | unusedValue (choice : Choice) (value : String)
  | missingValue (choice : Choice)
  /-- Arguments that mean nothing here. -/
  | unrecognized (args : List String)
  deriving DecidableEq, Repr

/-- The text of a usage error. -/
def UsageError.message : UsageError → String
  | .ambiguous arg candidates =>
      "ambiguous option: " ++ arg ++ " could match " ++ String.intercalate ", " candidates
  | .unusedValue choice value =>
      "argument " ++ choice.name ++ ": ignored explicit argument " ++ Text.quoted value
  | .missingValue choice => "argument " ++ choice.name ++ ": expected one argument"
  | .unrecognized args => "unrecognized arguments: " ++ String.intercalate " " args

/-- What an argument is. -/
inductive Token where
  | word (text : String)
  /-- An option, with the value after `=`. -/
  | choice (choice : Choice) (value : Option String)
  /-- The short form of the help option with more letters after it. -/
  | letters (text : String)
  /-- What looks like an option and is none. -/
  | unknown (text : String)
  /-- The mark after which everything is a word. -/
  | separator
  deriving DecidableEq, Repr

/-- The option of a spelling. -/
def choice? (spelling : String) : Option Choice :=
  (spellings.find? fun s => s.1 = spelling).map (·.2)

/-- The text before the first `=`, and the one after it if there is one. -/
def splitValue (arg : String) : String × Option String :=
  let cs := arg.toList
  let before := cs.takeWhile (· != '=')
  match cs.drop before.length with
  | [] => (arg, none)
  | _ :: value => (String.ofList before, some (String.ofList value))

/-- The spellings that a text may be short for. -/
def completions (text : String) : List (String × Choice) :=
  spellings.filter fun s => text.toList.isPrefixOf s.1.toList

/-- Whether an argument is a negative number: digits, or digits after a point
    and perhaps before it.  A line feed at its end does no harm. -/
def isNegativeNumber (arg : String) : Bool :=
  match arg.toList with
  | '-' :: r =>
      let digits := if r.getLast? = some '\n' then r.dropLast else r
      let whole := digits.takeWhile Text.isDecimalDigit
      match digits.drop whole.length with
      | [] => !whole.isEmpty
      | '.' :: fraction => !fraction.isEmpty && fraction.all Text.isDecimalDigit
      | _ => false
  | _ => false

/-- What an argument is if it is no option. -/
def ifNoOption (arg : String) : Token :=
  if isNegativeNumber arg || arg.toList.contains ' ' then .word arg else .unknown arg

/-- What an argument with two dashes is, if it is no exact spelling. -/
def classifyLong (arg : String) : Except UsageError Token :=
  let (text, value) := splitValue arg
  match completions text with
  | [] => .ok (ifNoOption arg)
  | [(_, c)] => .ok (.choice c value)
  | several => .error (.ambiguous arg (several.map (·.1)))

/-- What an argument with one dash is, if it is no exact spelling. -/
def classifyShort (arg : String) : Token :=
  match arg.toList with
  | '-' :: 'h' :: '=' :: value => .letters (String.ofList value)
  | '-' :: 'h' :: letters => .letters (String.ofList letters)
  | _ => ifNoOption arg

/-- What an argument is. -/
def classifyOne (arg : String) : Except UsageError Token :=
  match arg.toList with
  | [] => .ok (.word arg)
  | ['-'] => .ok (.word arg)
  | '-' :: second :: _ =>
      match choice? arg with
      | some c => .ok (.choice c none)
      | none => if second = '-' then classifyLong arg else .ok (classifyShort arg)
  | _ => .ok (.word arg)

/-- What the arguments are, up to the first that is an error. -/
def classify : List String → Except UsageError (List Token)
  | [] => .ok []
  | arg :: rest =>
      if arg = "--" then .ok (.separator :: rest.map .word)
      else do
        let t ← classifyOne arg
        let ts ← classify rest
        pure (t :: ts)

/-- What a command line says. -/
structure Arguments where
  mode : Option String
  showErrors : Bool
  stopOnFailure : Bool
  report : Option Path
  verbose : Bool
  deriving DecidableEq, Repr

/-- What the empty command line says. -/
def Arguments.none : Arguments := ⟨Option.none, false, false, Option.none, false⟩

/-- What a command line asks for. -/
inductive Request where
  | help
  | run (arguments : Arguments)
  deriving DecidableEq, Repr

/-- The letters after the short form of the help option must all be that option
    again. -/
def checkLetters (letters : String) : Except UsageError Request :=
  match letters.toList with
  | [] => .error (.unusedValue .help "")
  | cs =>
      match cs.dropWhile (· == 'h') with
      | [] => .ok .help
      | rest => .error (.unusedValue .help (String.ofList rest))

/-- Goes through tokens.  The first word is the mode, and a separator next to it
    belongs to it; `extras` are the arguments that mean nothing. -/
def interpret (a : Arguments) (extras : List String) : List Token → Except UsageError Request
  | [] => if extras.isEmpty then .ok (.run a) else .error (.unrecognized extras)
  | .word w :: .separator :: rest =>
      if a.mode.isNone then interpret { a with mode := some w } extras rest
      else interpret a (extras ++ [w, "--"]) rest
  | .word w :: rest =>
      if a.mode.isNone then interpret { a with mode := some w } extras rest
      else interpret a (extras ++ [w]) rest
  | .separator :: rest =>
      if a.mode.isNone then interpret a extras rest
      else interpret a (extras ++ ["--"]) rest
  | .unknown text :: rest => interpret a (extras ++ [text]) rest
  | .letters letters :: _ => checkLetters letters
  | .choice .help none :: _ => .ok .help
  | .choice .report (some value) :: rest =>
      interpret { a with report := some (Path.ofString value) } extras rest
  -- a separate value must be a word: what starts with a dash is none
  | .choice .report none :: .word value :: rest =>
      interpret { a with report := some (Path.ofString value) } extras rest
  | .choice .report none :: _ => .error (.missingValue .report)
  | .choice c (some value) :: _ => .error (.unusedValue c value)
  | .choice .showErrors none :: rest => interpret { a with showErrors := true } extras rest
  | .choice .stopOnFailure none :: rest => interpret { a with stopOnFailure := true } extras rest
  | .choice .verbose none :: rest => interpret { a with verbose := true } extras rest

/-- Reads a command line. -/
def parse (argv : List String) : Except UsageError Request := do
  interpret Arguments.none [] (← classify argv)

/-- The name of the program. -/
def program : String := "ast-import-test"

/-- How the program is called. -/
def usage : String :=
  "usage: ast-import-test [-h] [--show-errors] [--stop-on-failure]\n"
    ++ "                       [--report REPORT] [--verbose]\n"
    ++ "                       [mode]\n"

/-- What the program has to say about itself. -/
def help : String :=
  usage
    ++ "\nExport ASTs to JSON, reimport them and check the re-export is identical.\n"
    ++ "\npositional arguments:\n"
    ++ "  mode               import test type (only 'ast' is supported)\n"
    ++ "\noptions:\n"
    ++ "  -h, --help         show this help message and exit\n"
    ++ "  --show-errors      forward suppressed compiler output to stderr\n"
    ++ "  --stop-on-failure  stop at the first failing test\n"
    ++ "  --report REPORT    write a JSON report to this path\n"
    ++ "  --verbose          enable debug logging\n"

/-- What is printed for a usage error. -/
def complaint (e : UsageError) : String :=
  usage ++ program ++ ": error: " ++ e.message ++ "\n"

end RoundTrip.CommandLine
