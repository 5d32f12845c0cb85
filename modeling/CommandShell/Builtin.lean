import CommandShell.History.Basic
import CommandShell.Loader
import CommandShell.Settings.Manager
import CommandShell.Text.Whole

/-! # The commands that come with the shell -/

namespace CommandShell.Builtin

/-- A text with blanks behind it up to a width. -/
def padRight (width : Nat) (s : String) : String :=
  s ++ String.ofList (List.replicate (width - s.length) ' ')

/-- A text with blanks before it up to a width. -/
def padLeft (width : Nat) (s : String) : String :=
  String.ofList (List.replicate (width - s.length) ' ') ++ s

/-- The manager of the settings that the whole process shares. -/
def sharedManager : ManagerId := 0

/-! ## Directories -/

/-- Change the directory: to the target, home without one, back with `-`. The directory that is left
is remembered only when the change succeeds. -/
def changeDirectory (origin : Nat) (arguments : List String) : Shell Unit := do
  let previous := (← get).previous.get? origin
  match arguments.head?, previous with
  | some "-", none => Shell.printLine "cd: no previous directory"
  | some "-", some target =>
    Shell.printLine target
    go target
  | target, _ => go (target.getD "")
where
  /-- Go to a target and remember the directory that is left. -/
  go (target : String) : Shell Unit := do
    let home := Path.ofString (← get).home
    let path ← if target = "" then pure home else Files.expandHome (Path.ofString target)
    let left ← Files.currentDirectory
    Files.changeDirectory path
    modify fun w => { w with previous := w.previous.put origin left }

/-- Print the working directory. -/
def printDirectory : Shell Unit := do
  Shell.printLine (← Files.currentDirectory)

/-! ## Settings -/

/-- Show all settings. -/
def showSettings : Shell Unit := do
  let c ← Manager.config sharedManager
  let path ← SettingsFile.path
  let home := (← get).home
  Shell.printLine ("\nConfig file: " ++ path.toString ++ "\n")
  Setting.all.forM fun s =>
    Shell.printLine ("  " ++ padRight 14 s.key ++ " = " ++ (c.effective home s).toJson.display)
  Shell.printLine ""

/-- Report a fault of a bad value as a line of output. -/
def reportingValues (action : Shell Unit) : Shell Unit :=
  Shell.recover Fault.isValue action fun f => Shell.printLine ("Error: " ++ f.message)

/-- Show or change settings. -/
def configure (arguments : List String) : Shell Unit :=
  match arguments with
  | [] => showSettings
  | "set" :: key :: word :: words => do
    let done ← Shell.recover Fault.isValue
      (do
        Manager.set sharedManager key (.str (" ".intercalate (word :: words)))
        pure true)
      fun f => do
        Shell.printLine ("Error: " ++ f.message)
        pure false
    if done then
      let value ← Manager.getKey sharedManager key .null
      Shell.printLine ("Set " ++ key ++ " = " ++ value.display)
  | "set" :: _ => Shell.printLine "Usage: config set KEY VALUE"
  | action :: rest =>
    if action = "del" ∨ action = "unset" then
      match rest with
      | [] => Shell.printLine "Usage: config del KEY"
      | key :: _ => reportingValues do
        Manager.unset sharedManager key
        Shell.printLine ("Unset " ++ key)
    else do
      Shell.printLine ("Unknown action: " ++ action)
      Shell.printLine "Usage: config [set KEY VALUE|del KEY]"

/-! ## Help and history -/

/-- A line of a list of commands. -/
def commandLine (usage description : String) : String :=
  "  " ++ padRight 24 usage ++ " - " ++ description

/-- The line of an entry in the help. -/
def helpLine (e : Entry) : String :=
  let aliases := if e.aliases.isEmpty then "" else
    " (aliases: " ++ ", ".intercalate e.aliases ++ ")"
  commandLine (e.usage.getD "None") e.description ++ aliases

/-- Load everything and list the commands of the registry. -/
def showHelp : Shell Unit := do
  let context := (← get).context
  if context.hasLoader then
    let _ ← Loader.loadAll false
  Shell.printLine "\nCommands:"
  ((← get).registries.get context.registry).all.forM fun e => Shell.printLine (helpLine e)
  Shell.printLine (commandLine "!<cmd>" "Run shell command")
  Shell.printLine (commandLine "<a>; <b>" "Run several commands in order")
  Shell.printLine ""

/-- The number that an argument of the history command writes. -/
def countOf (text : String) : Shell Int :=
  match Text.readWhole Json.maxDigits text.toList with
  | .ok n => pure n
  | .error .invalid => throw (.badCount text)
  | .error (.oversized digits) => throw (.longNumber digits)

/-- Print entries with their numbers, the first of them with `number`. -/
def printNumbered (number : Nat) : List String → Shell Unit
  | [] => pure ()
  | e :: es => do
    Shell.printLine (padLeft 5 (toString number) ++ "  " ++ e)
    printNumbered (number + 1) es

/-- Show the history, or the end of it. -/
def showHistory (arguments : List String) : Shell Unit := do
  let es ← historyEntries
  match arguments with
  | [] => printNumbered 1 es
  | count :: _ =>
    let n ← countOf count
    if n ≤ 0 then Shell.printLine "Usage: history [n]  (n must be a positive number)"
    else
      -- Entries keep their numbers in the whole history.
      let start := es.length - n.toNat
      printNumbered (start + 1) (es.drop start)

/-! ## All of them -/

/-- Call a builtin with the texts among its arguments. -/
def call (b : Builtin) (origin : Nat) (arguments : List String) : Shell Json := do
  match b with
  | .cd => changeDirectory origin arguments
  | .config => configure arguments
  | .echo => Shell.printLine (" ".intercalate arguments)
  | .help => showHelp
  | .history => showHistory arguments
  | .pwd => printDirectory
  | .quit => Shell.printLine "Goodbye!"
  pure (if b = .quit then .bool true else .null)

end CommandShell.Builtin
