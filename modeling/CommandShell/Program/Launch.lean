import CommandShell.Program.Basic
import CommandShell.Program.Configure
import CommandShell.Program.Logging
import CommandShell.Prompt.Rich
import CommandShell.Prompt.Simple

/-! # Starting the shell

The program `cmdsh`: it reads the settings and its options, and then shows or changes settings,
lists commands, runs a single line or opens a prompt. Options have precedence over settings. -/

namespace CommandShell.Program.Launch

/-- The name of the program. -/
def name : String := "cmdsh"

/-! ## Options -/

/-- How the group that an option belongs to is shown. It ends with an address, which differs from
run to run. -/
def groupText : String := "<argparse._ArgumentGroup object at 0x7f0000000000>"

/-- An option that takes a path; `setting` is the text of the path that holds without it, and
`path` what that text stands for. -/
def pathOption (spelling key metavar about : String) (setting : RawText) (path : Path) :
    OptionSpec :=
  let help := RawText.ofString (about ++ " (default: ") ++ setting ++ RawText.ofString ")"
  let none := Parameter.ofValue "None"
  ⟨[spelling], key, .value metavar, help,
    [("option_strings", .ofValue ("[" ++ Text.quoted spelling ++ "]")), ("dest", .ofText key),
      ("nargs", none), ("const", none), ("default", .ofPath path), ("type", .ofText "Path"),
      ("choices", none), ("required", .no), ("help", .ofText help), ("metavar", none),
      ("container", .ofValue groupText)]⟩

/-- The options of the program. -/
def options (commandsDir historyFile : RawText × Path) : List OptionSpec :=
  [.helpOption,
    .withValue ["-c", "--command"] "command" "LINE" "Run LINE and exit",
    pathOption "--commands-dir" "commands_dir" "COMMANDS_DIR" "User command modules"
      commandsDir.1 commandsDir.2,
    pathOption "--history-file" "history_file" "HISTORY_FILE" "History file"
      historyFile.1 historyFile.2,
    .flag ["--incognito"] "incognito" "Keep history in memory only",
    .flag ["--simple"] "simple" "Use simple REPL (no prompt_toolkit features)",
    .flag ["-v", "--verbose"] "verbose" "Debug logging",
    .flag ["--list-commands"] "list_commands" "List internal commands and exit",
    .flag ["--config"] "config" "Show current configuration",
    .withValue ["--set-config"] "set_config" "KEY=VALUE" "Set a config value",
    .withValue ["--unset-config"] "unset_config" "KEY" "Unset a config value (reset to default)"]

/-- What stands below the options in the help. -/
def epilog (settingsFile : Path) : String := "\n".intercalate [
  "Config file: " ++ settingsFile.toString,
  "",
  "Examples:",
  "    cmdsh                              # Start the REPL",
  "    cmdsh -c \"cd /tmp; ls -la\"         # Run one line and exit",
  "    cmdsh --list-commands              # Show internal commands",
  "    cmdsh --set-config prompt='> '     # Change the prompt",
  "        "]

/-- The program with its options. -/
def spec (settingsFile : Path) (commandsDir historyFile : RawText × Path) : ProgramSpec :=
  ⟨name, "Interactive command dispatcher", options commandsDir historyFile, epilog settingsFile⟩

/-! ## Sessions -/

/-- Start a session that keeps its history in a file or in memory. Modules are looked for in a
directory of the user, which has to be known by now, and then among those that come with the shell;
all of them are loaded. -/
def startSession (commandsDir historyFile : Option Path) (probeCommand : String) :
    Shell Unit := do
  let history ← match historyFile with
    | some path => History.openFile path
    | none => pure (.memory [])
  let commandsDir ← match commandsDir with
    | some path => pure path
    | none => throw .noPath
  modify fun w => { w with
    history
    loader := Loader.ofDirectories [commandsDir, w.builtinsDir] moduleRegistry
    classifier := .session
    probeCommand }
  let _ ← Loader.loadAll false
  Session.start moduleRegistry none

/-- List the commands of the session. -/
def listCommands : Shell Unit := do
  let w ← get
  (w.registries.get w.context.registry).all.forM fun e =>
    Shell.printLine (Builtin.commandLine (e.usage.getD "None") e.description)

/-- What is reported of a fault of a single line. -/
def faultText : Fault → String
  | .unknownCommand name => "Unknown command: " ++ name.getD "None"
  | f => "Command error: " ++ f.message

/-- Run a single line, which may be missing. Faults are reported and make the exit status one. -/
def runOnce (line : Option String) : Shell Nat :=
  Shell.recover Fault.isOrdinary
    (do
      match line with
      | some line => Session.run line
      | none => throw (.noAttribute "list" "strip")
      pure 0)
    fun f => do
      Shell.complainLine (faultText f)
      pure 1

/-! ## The program -/

/-- What the options ask for once there is a session. -/
def serve (input : Input) (c : Settings) (taken : List CommandLine.Taken) : Shell Nat := do
  if CommandLine.hasFlag taken "list_commands" then
    listCommands
    pure 0
  else
    match CommandLine.lastValue? taken "command" with
    | some line => runOnce line
    | none => do
      if CommandLine.hasFlag taken "simple" || c.simple.getD false then
        Prompt.simple (c.prompt.getD Setting.defaultPrompt).toString input.answers
      else Prompt.rich input.keys
      pure 0

/-- The value of an option unless it is missing or empty. -/
def nonEmptyValue (taken : List CommandLine.Taken) (key : String) : Option String :=
  (CommandLine.lastValue? taken key).join.filter (· ≠ "")

/-- The path that an option gives, or another where the option is not given. An option without value
gives none. -/
def givenPath (taken : List CommandLine.Taken) (key : String) (otherwise : Path) : Option Path :=
  match CommandLine.lastValue? taken key with
  | some value => value.map Path.ofString
  | none => some otherwise

/-- Run the program on the words of its command line. The answer is the exit status. -/
def run (input : Input) (words : List String) : Shell Nat := do
  let c ← Manager.config Builtin.sharedManager
  let home := (← get).home
  let settingsFile ← SettingsFile.path
  let commandsText := c.commandsDir.getD (Setting.defaultCommandsDir home)
  let historyText := c.historyFile.getD (Setting.defaultHistoryFile home)
  -- The help shows both paths, so they are expanded before any option is read.
  let commandsDir ← settingPath commandsText
  let historyFile ← settingPath historyText
  let taken ← readOptions
    (spec settingsFile (commandsText, commandsDir) (historyText, historyFile)) words
  let level := (c.logLevel.getD Setting.defaultLogLevel).toString
  startLogging (CommandLine.hasFlag taken "verbose") level
  if CommandLine.hasFlag taken "config" then
    showSettings
    pure 0
  else
    match nonEmptyValue taken "set_config", nonEmptyValue taken "unset_config" with
    | some word, _ => assign word
    | none, some key => unassign key
    | none, none => do
      let incognito := CommandLine.hasFlag taken "incognito" || c.incognito.getD false
      startSession (givenPath taken "commands_dir" commandsDir)
        (if incognito then none else givenPath taken "history_file" historyFile)
        (c.probeCommand.getD Setting.defaultProbeCommand).toString
      serve input c taken

end CommandShell.Program.Launch
