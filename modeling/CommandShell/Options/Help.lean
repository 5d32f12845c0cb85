import CommandShell.Options.Basic
import CommandShell.Text.Wrap

/-! # Usage and help

The texts that a program shows about its options, laid out for lines of 78 characters: the usage,
and a list of the options with their help, which is a template, in a second column. -/

namespace CommandShell.CommandLine

/-- The width of the lines. -/
def lineWidth : Nat := 78

/-- The greatest indentation of the second column. -/
def maxHelpColumn : Nat := 24

/-! ## Usage -/

/-- An option as the usage shows it. -/
def usagePart (o : OptionSpec) : String :=
  let spelling := o.spellings.headD ""
  match o.kind with
  | .value metavar => "[" ++ spelling ++ " " ++ metavar ++ "]"
  | _ => "[" ++ spelling ++ "]"

/-- Fill lines with parts; `line` is the present line and `used` its length. -/
def fillParts (indent : Nat) (line : List String) (used : Nat) : List String → List String
  | [] => [" ".intercalate line]
  | part :: rest =>
    if lineWidth < used + 1 + part.length ∧ line ≠ [] then
      " ".intercalate line :: fillParts indent [part] (indent + part.length) rest
    else fillParts indent (line ++ [part]) (used + 1 + part.length) rest

/-- The usage of a program. -/
def usage (p : ProgramSpec) : String :=
  let indent := "usage: ".length + p.name.length + 1
  let lines := fillParts indent ["usage:", p.name] (indent - 1) (p.options.map usagePart)
  ("\n" ++ String.ofList (List.replicate indent ' ')).intercalate lines ++ "\n"

/-! ## Help -/

/-- An option as the help shows it. -/
def helpTitle (o : OptionSpec) : String :=
  match o.kind with
  | .value metavar => ", ".intercalate (o.spellings.map fun s => s ++ " " ++ metavar)
  | _ => ", ".intercalate o.spellings

/-- The column in which the help of the options starts. -/
def helpColumn (p : ProgramSpec) : Nat :=
  min maxHelpColumn ((p.options.map fun o => (helpTitle o).length + 2).foldl max 0 + 2)

/-- The lines about one option. -/
def optionHelp (p : ProgramSpec) (o : OptionSpec) : Except TemplateFault String := do
  let filled ← Template.fill (o.parameters ++ [("prog", .ofText p.name)]) o.help
  let column := helpColumn p
  let words := Text.singleSpaced filled.toList
  let lines := (Text.wrap (max 11 (lineWidth - column)) words).map String.ofList
  let title := "  " ++ helpTitle o
  let indent := String.ofList (List.replicate column ' ')
  -- A title that leaves no gap before the second column has its help on the next line.
  let fits := title.length + 2 ≤ column
  let start := if fits then
      title ++ String.ofList (List.replicate (column - title.length) ' ')
    else title ++ "\n" ++ indent
  pure (start ++ ("\n" ++ indent).intercalate lines ++ "\n")

/-- The help of a program. -/
def help (p : ProgramSpec) : Except TemplateFault String := do
  let options ← p.options.mapM (optionHelp p)
  pure (usage p ++ "\n" ++ p.description ++ "\n\noptions:\n" ++ String.join options ++ "\n" ++
    p.epilog ++ "\n")

end CommandShell.CommandLine
