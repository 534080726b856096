import RoundTrip.Json.Reader

/-! # The fields of the configuration

    Each field has a name, under which it is set in the environment and named in
    errors.  A value that does not fit its field is refused; all refusals are
    collected, in the order of the fields. -/

namespace RoundTrip.Configuration

/-- A field of the configuration. -/
inductive Field where
  | repoRoot
  | buildDir
  | compilerRelPath
  | splitterPath
  | diffCommand
  | testDirs
  | sourceSuffix
  | excludedNames
  | jsonIndent
  | timeoutSeconds
  deriving DecidableEq, Repr

namespace Field

/-- The name of a field. -/
def name : Field → String
  | .repoRoot => "repo_root"
  | .buildDir => "build_dir"
  | .compilerRelPath => "compiler_rel_path"
  | .splitterPath => "splitter_path"
  | .diffCommand => "diff_command"
  | .testDirs => "test_dirs"
  | .sourceSuffix => "source_suffix"
  | .excludedNames => "excluded_names"
  | .jsonIndent => "json_indent"
  | .timeoutSeconds => "timeout_seconds"

/-- Whether a field holds a list, which is written as a document in the
    environment. -/
def isList : Field → Bool
  | .testDirs | .excludedNames => true
  | _ => false

end Field

/-- What is wrong with a value. -/
inductive Misfit where
  | notList
  | notText
  | notPath
  | noInteger
  | integerTooLong
  | fraction
  | notFinite
  | notInteger
  | noNumber
  | notNumber
  deriving DecidableEq, Repr

/-- The label of what is wrong with a value. -/
def Misfit.label : Misfit → String
  | .notList => "tuple_type"
  | .notText => "string_type"
  | .notPath => "path_type"
  | .noInteger => "int_parsing"
  | .integerTooLong => "int_parsing_size"
  | .fraction => "int_from_float"
  | .notFinite => "finite_number"
  | .notInteger => "int_type"
  | .noNumber => "float_parsing"
  | .notNumber => "float_type"

/-- A value that is refused. -/
structure Refusal where
  field : Field
  /-- The position in a list. -/
  index : Option Nat
  misfit : Misfit
  deriving DecidableEq, Repr

/-- What is wrong with the configuration. -/
inductive LoadError where
  /-- The environment holds a list that cannot be read. -/
  | unreadable (field : Field)
  /-- The environment holds a list that is nested to too many levels. -/
  | tooDeep (kind : Json.Container)
  | refused (values : List Refusal)
  deriving DecidableEq, Repr

/-- The word for what holds other values. -/
def containerWord : Json.Container → String
  | .array => "array"
  | .object => "object"

/-- The text of a list that cannot be read.  Refusals are listed and have no
    text. -/
def LoadError.message : LoadError → String
  | .unreadable field =>
      "error parsing value for field \"" ++ field.name ++ "\" from source \"EnvSettingsSource\""
  | .tooDeep kind =>
      "maximum recursion depth exceeded while decoding a JSON " ++ containerWord kind
        ++ " from a unicode string"
  | .refused _ => ""

end RoundTrip.Configuration
