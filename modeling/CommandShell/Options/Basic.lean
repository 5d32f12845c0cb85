import CommandShell.Options.Template

/-! # Options of a program

What a program takes on its command line, as data: its options with their texts, from which parsing,
usage and help are derived. -/

namespace CommandShell

/-- What an option takes and does. -/
inductive OptionKind
  | help
  | flag
  | value (metavar : String)
deriving Repr, DecidableEq

/-- An option of a program. -/
structure OptionSpec where
  /-- Its spellings. -/
  spellings : List String
  /-- The name under which it is stored. -/
  key : String
  /-- What it takes and does. -/
  kind : OptionKind
  /-- Its help, a template. -/
  help : RawText
  /-- What the names in its template stand for, besides the name of the program. -/
  parameters : List (String × Parameter)
deriving Repr, DecidableEq

namespace OptionSpec

/-- Whether an option takes a value. -/
def takesValue (o : OptionSpec) : Bool :=
  match o.kind with
  | .value _ => true
  | _ => false

/-- All spellings of an option, as errors show them. -/
def title (o : OptionSpec) : String := "/".intercalate o.spellings

/-- An option without value. -/
def flag (spellings : List String) (key help : String) : OptionSpec :=
  ⟨spellings, key, .flag, help, []⟩

/-- An option with a value, which the help shows as `metavar`. -/
def withValue (spellings : List String) (key metavar help : String) : OptionSpec :=
  ⟨spellings, key, .value metavar, help, []⟩

/-- The option that every program has. -/
def helpOption : OptionSpec :=
  ⟨["-h", "--help"], "help", .help, "show this help message and exit", []⟩

end OptionSpec

/-- A program with its options and its texts. -/
structure ProgramSpec where
  /-- The name of the program. -/
  name : String
  /-- What it does. -/
  description : String
  /-- Its options. -/
  options : List OptionSpec
  /-- What stands at the end of its help. -/
  epilog : String
deriving Repr, DecidableEq

/-- All spellings of a program's options, each with its option, in the order of declaration. -/
def ProgramSpec.spellings (p : ProgramSpec) : List (String × OptionSpec) :=
  p.options.flatMap fun o => o.spellings.map fun s => (s, o)

end CommandShell
