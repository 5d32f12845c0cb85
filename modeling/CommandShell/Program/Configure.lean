import CommandShell.Builtin
import CommandShell.Options.Parse

/-! # Settings on the command line

Showing, setting and unsetting settings instead of starting a session. Each ends with an exit
status. -/

namespace CommandShell.Program

/-- A line about a setting; those that are customized are marked. -/
def settingLine (home : String) (c : Settings) (customized : List Setting) (s : Setting) : String :=
  " " ++ (if customized.contains s then "*" else " ") ++ Builtin.padRight 14 s.key ++ " = " ++
    (c.effective home s).toJson.display

/-- Show all settings. -/
def showSettings : Shell Unit := do
  let c ← Manager.config Builtin.sharedManager
  Shell.printLine ("Config file: " ++ (← SettingsFile.path).toString ++ "\n")
  let customized ← Manager.customized Builtin.sharedManager
  let home := (← get).home
  Setting.all.forM fun s => Shell.printLine (settingLine home c customized s)
  Shell.printLine "\n(* = customized)"
  Shell.printLine "Set with: cmdsh --set-config key=value"

/-- Tell where the settings were saved. -/
def confirmSaved : Shell Unit := do
  Shell.printLine ("Saved to " ++ (← SettingsFile.path).toString)

/-- The exit status of an action. It is one when the action ends with a fault of a bad value, which
is reported. -/
def statusOf (action : Shell Unit) : Shell Nat :=
  Shell.recover Fault.isValue
    (do
      action
      pure 0)
    fun f => do
      Shell.printLine ("Error: " ++ f.message)
      pure 1

/-- Give a setting a value, both written in one word with an equals sign between them. -/
def assign (word : String) : Shell Nat := statusOf do
  match CommandLine.splitEquals word.toList with
  | (_, none) => throw .noAssignment
  | (key, some value) => do
    let key := Text.strip (String.ofList key)
    let value := String.ofList value
    Manager.set Builtin.sharedManager key (.str value)
    Shell.printLine ("Set " ++ key ++ " = " ++ value)
    confirmSaved

/-- Take a setting back to its default. -/
def unassign (key : String) : Shell Nat := statusOf do
  Manager.unset Builtin.sharedManager key
  Shell.printLine ("Unset " ++ key)
  confirmSaved

end CommandShell.Program
