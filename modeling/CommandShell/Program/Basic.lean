import CommandShell.Loader
import CommandShell.Options.Help
import CommandShell.Options.Parse
import CommandShell.Session.Basic

/-! # Programs

What the programs of the shell have in common: each starts as a new process on the files that are
there, and reads its options first. A program ends with its exit status or with a fault; a request
for help and a mistake on the command line are faults that carry the status. -/

namespace CommandShell

/-- The world of a new process. Files, host, working directory and user stay; all else is forgotten,
and log records are written bare. -/
def World.restarted (w : World) : World :=
  { w with
    logSink := .bare
    registries := default
    loader := default
    history := .memory []
    recalled := Recall.fresh
    session := Session.fresh
    classifier := .session
    context := ⟨moduleRegistry, false, false⟩
    settings := {}
    imports := 0
    previous := {} }

/-- The tree with the modules that come with the shell, in a directory at a location. -/
def FileTree.withBuiltins (t : FileTree) (place : Location) : FileTree :=
  let base := (t.makeLocation place).put (place ++ [initialFile]) (.file (.bytes []))
  Builtin.all.foldl (fun t b =>
    (t.makeLocation (place ++ [b.name])).put (place ++ [b.name, initialFile])
      (.file (.code (.builtin b)))) base

namespace Program

/-- What a program reads while it runs: answers to a simple prompt, and keys at a rich one. -/
structure Input where
  /-- The answers, lines or interruptions. -/
  answers : List (Option String)
  /-- The keys. -/
  keys : String
deriving Repr, DecidableEq, Inhabited

/-- The exit status of a mistake on the command line. -/
def misuse : Nat := 2

/-- The options on a command line. Help is printed, a mistake is reported below the usage, and both
end the program. -/
def readOptions (p : ProgramSpec) (words : List String) : Shell (List CommandLine.Taken) := do
  match CommandLine.parse p words with
  | .options taken => pure taken
  | .help => do
    Shell.emit (.out (← Shell.ofExcept .template (CommandLine.help p)))
    throw (.exit 0)
  | .mistake m => do
    Shell.emit (.err (CommandLine.usage p))
    Shell.complainLine (p.name ++ ": error: " ++ m.message)
    throw (.exit misuse)

/-- The path that a setting writes, with a leading `~` replaced. -/
def settingPath (text : RawText) : Shell Path := Files.expandHome (Path.ofText text)

end Program

end CommandShell
