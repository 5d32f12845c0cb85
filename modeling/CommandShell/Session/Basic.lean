import CommandShell.Session.Dispatch

/-! # Sessions

A session takes one line at a time, in two steps: `setInput` reads the line and runs its commands
for the host, `execute` then calls its internal commands. Handlers may run further lines on the
session; `run` ties this knot, up to a depth of nesting. -/

namespace CommandShell.Session

/-- A session that has seen no line. -/
def fresh : Session := ⟨none, none, false⟩

/-- Whether the registry of the session finds a name. -/
def isRegistered (name : String) : Shell Bool := do
  pure (← Shell.lookup (← get).context.registry name).isSome

/-- Whether a name is internal: registered, the name of a module, or registered once all modules
are loaded. Aliases are known only then. -/
def isInternal (name : String) : Shell Bool := do
  if ← isRegistered name then pure true
  else if (← Loader.available).contains (normalName name) then pure true
  else
    let _ ← Loader.loadAll false
    isRegistered name

/-- Whether a name is internal to whoever decides that. -/
def classify (name : String) : Shell Bool := do
  match (← get).classifier with
  | .session => isInternal name
  | .everything => pure true
  | .names internal => pure (internal.contains name)

/-- The commands of a line, when `ask` tells which names are internal. A line that cannot be read is
reported and has none. -/
def parseWith (ask : String → Shell Bool) (line : String) : Shell (List Command) := do
  let unreadable (reason : String) : Shell (List Command) := do
    Shell.log .warning .parser ("Cannot parse " ++ Text.quoted line ++ ": " ++ reason)
    pure []
  let reading ← Shell.recover Fault.isValue
    (do pure ((← Line.read ask line.toList).mapError Token.Fault.message))
    fun f => pure (.error f.message)
  match reading with
  | .error reason => unreadable reason
  | .ok cs =>
    Shell.log .debug .parser
      ("Parsed " ++ Text.quoted line ++ " into " ++ toString cs.length ++ " command(s)")
    pure cs

/-- The commands of a line. -/
def parse (line : String) : Shell (List Command) := parseWith classify line

/-- Run those of some commands that are for the host. -/
def runSystemCommands : List Command → Shell Unit
  | [] => pure ()
  | c :: cs => do
    if c.isSystem then Dispatch.runSystem [c.system]
    runSystemCommands cs

/-- Read a line and run its commands for the host. A blank line changes nothing. -/
def setInput (line : String) : Shell Unit := do
  if Line.isBlank line then pure ()
  else
    modify fun w => { w with session := { w.session with name := some line } }
    let cs ← parse line
    modify fun w => { w with session := { w.session with commands := some cs } }
    runSystemCommands cs

/-- The argument kinds of a command, as log records show them. -/
def kindsText (c : Command) : String :=
  "[" ++ ", ".intercalate (c.kinds.map fun k => Text.quoted k.label) ++ "]"

/-- Load and call one internal command. Whether its handler asked to exit is remembered. -/
def executeOne (rerun : String → Shell Unit) (c : Command) : Shell Unit := do
  match c.name with
  | none => throw (.noAttribute "NoneType" "replace")
  | some name =>
    Loader.load name
    Shell.log .debug .session (name ++ ": arguments " ++ kindsText c)
    let result ← Dispatch.dispatch rerun setInput c
    if result.isTrue then
      modify fun w => { w with session := { w.session with exitRequested := true } }

/-- Load and call those of some commands that are internal, in order. -/
def executeAll (rerun : String → Shell Unit) : List Command → Shell Unit
  | [] => pure ()
  | c :: cs => do
    if !(c.isSystem || c.isEmpty) then executeOne rerun c
    executeAll rerun cs

/-- Load and call the internal commands of the line. -/
def executeWith (rerun : String → Shell Unit) : Shell Unit := do
  match (← get).session.commands with
  | none => pure ()
  | some cs => executeAll rerun cs

/-- Read a line and execute it. A blank line does nothing. -/
def runWith (rerun : String → Shell Unit) (line : String) : Shell Unit := do
  if Line.isBlank line then pure ()
  else
    setInput line
    executeWith rerun

/-- Run a line in which handlers nest at most so deep. -/
def runNested : Nat → String → Shell Unit
  | 0, _ => throw .nesting
  | depth + 1, line => runWith (runNested depth) line

/-- How deep handlers may run lines within lines. -/
def maxNesting : Nat := 195

/-- Run a line. -/
def run (line : String) : Shell Unit := runNested (maxNesting + 1) line

/-- Execute the line that was read last. -/
def execute : Shell Unit := executeWith (runNested maxNesting)

/-- Dispatch a single command. -/
def dispatch (c : Command) : Shell Json := Dispatch.dispatch (runNested maxNesting) setInput c

/-- Start a session in a registry; what the loader finds is registered there. A first line is read
at once. -/
def start (registry : RegistryId) (line : Option String) : Shell Unit := do
  modify fun w => { w with
    loader := { w.loader with registry }
    context := ⟨registry, true, true⟩
    session := fresh }
  match line with
  | none => pure ()
  | some l => setInput l

end CommandShell.Session
