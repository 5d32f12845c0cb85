import CommandShell.Builtin
import CommandShell.Program.Basic

/-! # Setting the shell up

The program `cmdsh-init`: it writes the defaults of all settings and links the modules that come
with the shell into the directory of the user's modules, where they can be replaced or removed. What
is there already stays, unless the program is told to overwrite it. -/

namespace CommandShell.Program.Setup

/-- The name of the program. -/
def name : String := "cmdsh-init"

/-- The options of the program. -/
def options : List OptionSpec :=
  [.helpOption,
    .flag ["--force", "-f"] "force" "Overwrite existing configuration and builtins",
    .flag ["--quiet", "-q"] "quiet" "Suppress output"]

/-- What stands below the options in the help. -/
def epilog : String := "\n".intercalate [
  "This command creates:",
  "  ~/.cmdsh/                    - Main configuration directory",
  "  ~/.cmdsh/config.json         - Configuration file with default settings",
  "  ~/.cmdsh/commands/           - Command modules (with builtins installed)",
  "",
  "Examples:",
  "    cmdsh-init                    # Initialize with defaults",
  "    cmdsh-init --force            # Overwrite existing config and builtins",
  "        "]

/-- The program with its options. -/
def spec : ProgramSpec :=
  ⟨name, "Initialize cmdsh configuration and directories", options, epilog⟩

/-! ## Linking modules -/

/-- Whether a directory entry is a module: a directory that is neither hidden nor private. -/
def isModule (path : Path) : Shell Bool := do
  if ← Files.isDirectory path then pure (isModuleName path.name) else pure false

/-- Link modules into a directory, in order, and list the links that were made. A name that is taken
is skipped, or with `force` replaced. -/
def linkModules (directory : Path) (force : Bool) : List Path → Shell (List String)
  | [] => pure []
  | source :: rest => do
    if !(← isModule source) then linkModules directory force rest
    else
      let path := directory.child source.name
      let isTaken ← (do if ← Files.isThere path then pure true else Files.isLink path)
      if isTaken && !force then linkModules directory force rest
      else
        if isTaken then Files.remove path
        Files.makeLink path source.text
        let more ← linkModules directory force rest
        pure ((path.toString ++ " -> " ++ source.toString) :: more)

/-- Link all modules that come with the shell into a directory, which is made if need be. -/
def installBuiltins (directory : Path) (force : Bool) : Shell (List String) := do
  Files.makeDirectories directory
  linkModules directory force (← Files.list (← get).builtinsDir)

/-! ## The program -/

/-- Print a heading and what is listed below it, unless nothing is. -/
def printList (heading : String) (listed : List String) : Shell Unit := do
  if listed.isEmpty then pure ()
  else
    Shell.printLine heading
    listed.forM fun l => Shell.printLine ("  " ++ l)

/-- Run the program on the words of its command line. The answer is the exit status. -/
def run (words : List String) : Shell Nat := do
  let taken ← readOptions spec words
  let settingsFile ← SettingsFile.path
  -- Reading the settings makes the file, so this is asked first.
  let existed ← Files.isThere settingsFile
  let c ← Manager.config Builtin.sharedManager
  let directory ← settingPath (c.commandsDir.getD (Setting.defaultCommandsDir (← get).home))
  let force := CommandLine.hasFlag taken "force"
  let overwrite := force || !existed
  if overwrite then
    let _ ← SettingsFile.writeDefaults
  let linked ← installBuiltins directory force
  if CommandLine.hasFlag taken "quiet" then pure 0
  else
    let shown := [settingsFile.toString]
    printList "Created:" ((if overwrite then shown else []) ++ linked)
    printList "\nAlready exists (skipped):" (if overwrite then [] else shown)
    Shell.printLine "\nInitialization complete!"
    Shell.printLine ("\nCustomize commands: Edit files in " ++ directory.toString ++ "/")
    Shell.printLine "Start the shell:    cmdsh"
    pure 0

end CommandShell.Program.Setup
