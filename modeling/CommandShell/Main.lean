import CommandShell.Program.Launch
import CommandShell.Program.Setup
import Std.Time.Format

/-! # The command line

The outer layer of the two programs, which the name of the executable tells apart. It copies the
files that a program may read into a world, runs the program there, shows what reached the outside
and writes changed files back. Programs of the host are out of its reach, so that none is found. -/

namespace CommandShell.Main

/-- A program: from what it reads and the words of its command line to its exit status. -/
abbrev Program := CommandShell.Program.Input → List String → Shell Nat

/-- The program of an executable. -/
def programOf (executable : String) : Program :=
  if executable = Program.Setup.name then fun _ words => Program.Setup.run words
  else Program.Launch.run

/-- How a program ends: its exit status, the text of a fault that is no exit, and the world. -/
def outcome (program : Program) (w : World) (input : CommandShell.Program.Input)
    (words : List String) : Nat × Option String × World :=
  match (program input words).run w with
  | .ok status w => (status, none, w)
  | .error (.exit status) w => (status, none, w)
  | .error f w => (1, some f.message, w)

/-- Whether a program reads what is typed: then a typed line leaves a trace. -/
def readsInput (program : Program) (w : World) (words : List String) : Bool :=
  let trace (input : CommandShell.Program.Input) := (outcome program w input words).2.2.trace
  decide (trace ⟨[], ""⟩ ≠ trace ⟨[some "echo"], "echo\r"⟩)

/-! ## Files -/

/-- Copy a file into a tree, if it can be read. -/
def copyIn (t : FileTree) (path : Path) : IO FileTree := do
  try
    let data ← IO.FS.readBinFile path.toString
    pure ((t.makeLocation path.parent.names).put path.names (.file (.bytes data.toList)))
  catch _ => pure t

/-- The files of a tree that another tree does not hold with the same bytes. -/
def changedFiles (before after : FileTree) : List (Location × List UInt8) :=
  after.nodes.toList.filterMap fun (place, node) =>
    match node, before.node? place with
    | .file (.bytes data), some (.file (.bytes old)) =>
      if data = old then none else some (place, data)
    | .file (.bytes data), _ => some (place, data)
    | _, _ => none

/-- Copy in the files that a run would make although they are there, until there are none. -/
partial def settle (run : World → World) (w : World) : IO World := do
  let made := (changedFiles w.files (run w).files).filter fun (place, _) =>
    (w.files.node? place).isNone
  let files ← made.foldlM (fun t (place, _) => copyIn t (Path.ofNames place)) w.files
  if files.nodes.size = w.files.nodes.size then pure w
  else settle run { w with files }

/-- Write a file, after making its directory. -/
def copyOut (place : Location) (data : List UInt8) : IO Unit := do
  IO.FS.createDirAll (Files.locationText place.dropLast)
  IO.FS.writeBinFile (Files.locationText place) ⟨data.toArray⟩

/-! ## The world outside -/

/-- The home directories of users. -/
def accounts : IO (List (String × String)) := do
  try
    let lines ← IO.FS.lines "/etc/passwd"
    pure (lines.toList.filterMap fun l =>
      match l.splitOn ":" with
      | [user, _, _, _, _, home, _] => some (user, home)
      | _ => none)
  catch _ => pure []

/-- The world that a program starts in. Its files are the settings and the history where they are
kept by default, and what the command line names. -/
def world (executable : Path) (words : List String) : IO World := do
  let home := (← IO.getEnv "HOME").getD "/"
  let cwd := Path.ofString (← IO.currentDir).toString
  let time := (← Std.Time.PlainDateTime.now).format "uuuu-MM-dd HH:mm:ss"
  let userFiles := (Path.ofString home).child ".cmdsh"
  let named := words.map cwd.child
  let empty : FileTree := (default : FileTree).makeLocation cwd.names
  let files ← (userFiles.child "config.json" :: userFiles.child "history" :: named).foldlM copyIn
    (empty.makeLocation (Path.ofString home).names)
  let builtinsDir := executable.parent.child "builtins"
  pure { (default : World).restarted with
    files := files.withBuiltins builtinsDir.names
    cwd := .ofLocation cwd.names
    home
    accounts := ← accounts
    builtinsDir
    time }

/-- Show an event. -/
def report : Event → IO Unit
  | .out text => IO.print text
  | .err text => IO.eprint text
  | _ => pure ()

/-- The lines that are left on a stream. -/
partial def remainingLines (stream : IO.FS.Stream) : IO (List String) := do
  let line ← stream.getLine
  if line.isEmpty then pure []
  else pure (line :: (← remainingLines stream))

end CommandShell.Main

open CommandShell Main in
/-- Run the program that the executable is named for. -/
def main (words : List String) : IO UInt32 := do
  let executable := Path.ofString (← IO.appPath).toString
  let program := programOf executable.name
  let w ← world executable words
  let lines ← if readsInput program w words then remainingLines (← IO.getStdin) else pure []
  let input : Program.Input :=
    ⟨lines.map some, String.join (lines.map fun l => Text.strip l ++ "\r")⟩
  let w ← settle (fun w => (outcome program w input words).2.2) w
  let (status, complaint, after) := outcome program w input words
  after.trace.forM report
  complaint.forM IO.eprintln
  (changedFiles w.files after.files).forM fun (place, data) => copyOut place data
  pure status.toUInt32
