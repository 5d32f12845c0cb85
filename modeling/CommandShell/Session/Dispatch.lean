import CommandShell.Builtin
import CommandShell.Host

/-! # Dispatching commands

What becomes of a single command: an internal one is called through the registry, one for the host
is probed and run. Each success is recorded in the history. A handler may run further lines; how a
line is run is handed in as `rerun`. -/

namespace CommandShell

namespace Line

/-- Whether a line holds nothing but blanks. -/
def isBlank (line : String) : Bool := (Text.trim line.toList).isEmpty

end Line

namespace Dispatch

/-! ## Commands for the host -/

/-- Run the commands of a list on the host, in order. A command that is absent or blank is skipped;
one whose program is not found ends the list. -/
def runSystem : List (Option String) → Shell Unit
  | [] => pure ()
  | none :: rest => runSystem rest
  | some command :: rest => do
    if Line.isBlank command then runSystem rest
    else
      let name := executableName command
      let found ← if name = "" then pure false else Host.probe name
      if !found then throw (.unknownCommand (some name))
      else
        let code ← Host.run command
        -- A failed command is recorded like any other.
        if code ≠ 0 then
          Shell.log .debug .dispatcher (Text.quoted command ++ " exited with " ++ toString code)
        record command
        runSystem rest

/-- Whether a name can be run on the host. -/
def isSystemCommand (name : String) : Shell Bool :=
  if name = "" then pure false else Host.probe name

/-! ## Internal commands -/

/-- A handler that was not given the context cannot use it. -/
def needContext {α : Type} (hasContext : Bool) (part : String) (action : Shell α) : Shell α :=
  if hasContext then action else throw (.noAttribute "NoneType" part)

/-- Act on the session of the context. -/
def withSession {α : Type} (hasContext : Bool) (action : Shell α) : Shell α :=
  needContext hasContext "extras" do
    if (← get).context.hasSession then action else throw .noSession

/-- Run the actions of a handler. Lines are run by `rerun` and read by `reread`. -/
def runScript (rerun reread : String → Shell Unit) (hasContext : Bool) : List Action → Shell Json
  | [] => pure .null
  | .unknown name :: _ => throw (.unknownCommand name)
  | .raise r :: _ => throw (.raised r)
  | .print text :: rest => do
    Shell.printLine text
    runScript rerun reread hasContext rest
  | .finish value :: _ => pure value
  | .run line :: rest => do
    withSession hasContext (rerun line)
    runScript rerun reread hasContext rest
  | .setInput line :: rest => do
    withSession hasContext (reread line)
    runScript rerun reread hasContext rest
  | .define d body :: rest => do
    needContext hasContext "registry" do
      Shell.register (← get).context.registry (d.entry (.script body))
    runScript rerun reread hasContext rest
  | .undefine name :: rest => do
    needContext hasContext "registry" do
      Shell.unregister (← get).context.registry name
    runScript rerun reread hasContext rest
  | .record entry :: rest => do
    needContext hasContext "history" (record entry)
    runScript rerun reread hasContext rest
  | .load name :: rest => do
    needContext hasContext "loader" do
      if (← get).context.hasLoader then Loader.load name
      else throw (.noAttribute "NoneType" "load")
    runScript rerun reread hasContext rest

/-- Call the handler of an entry with arguments. -/
def callHandler (rerun reread : String → Shell Unit) (e : Entry) (arguments : List String) :
    Shell Json := do
  match e.handler with
  | .builtin b origin => b.call origin arguments
  | .script body =>
    let given := arguments.map Argument.text
    Shell.emit (.called e.name (if e.passContext then .context :: given else given))
    runScript rerun reread e.passContext body

/-- The entry that a command calls. -/
def entryOf (c : Command) : Shell (Option Entry) := do
  match c.name with
  | none => pure none
  | some "" => pure none
  | some name => Shell.lookup (← get).context.registry name

/-- Call the handler of a command and record the command. The arguments are all fields after the
first, values before parameters. -/
def dispatch (rerun reread : String → Shell Unit) (c : Command) : Shell Json := do
  if c.isEmpty then pure .null
  else
    match ← entryOf c with
    | none => throw (.unknownCommand c.name)
    | some e =>
      let fields := c.fields
      Shell.log .debug .dispatcher
        ("Dispatching " ++ e.name ++ " with " ++ toString (fields.length - 1) ++ " argument(s)")
      let result ← callHandler rerun reread e fields.tail
      record c.text
      pure result

end Dispatch

end CommandShell
