import CommandShell.Command.Parse
import CommandShell.Fault
import CommandShell.Registry
import CommandShell.Settings.Basic

/-! # The world of a shell

Everything that a shell acts on, as one value: files, the host that runs programs, the registries,
the history, the settings in memory and the session. An action (`Shell α`) changes the world and
gives a value or a fault; a fault keeps the changes made before it. What an action does to the
outside is written into the trace of the world, in order. -/

namespace CommandShell

/-! ## The trace -/

/-- How important a log record is. -/
inductive Level
  | debug
  | info
  | warning
deriving Repr, DecidableEq

namespace Level

/-- The name of a level. -/
def name : Level → String
  | debug => "DEBUG"
  | info => "INFO"
  | warning => "WARNING"

/-- The number of a level; more important levels have greater numbers. -/
def number : Level → Nat
  | debug => 10
  | info => 20
  | warning => 30

end Level

/-- Which part of the shell a log record comes from. -/
inductive LogSource
  | parser
  | dispatcher
  | process
  | loader
  | session
  | history
  | config
  | simplePrompt
  | eventLoop
deriving Repr, DecidableEq

/-- The name under which a part of the shell logs. -/
def LogSource.name : LogSource → String
  | parser => "cmdsh.core.parser"
  | dispatcher => "cmdsh.core.dispatcher"
  | process => "cmdsh.core.process"
  | loader => "cmdsh.commands.loader"
  | session => "cmdsh.session"
  | history => "cmdsh.history.store"
  | config => "cmdsh.config.config"
  | simplePrompt => "cmdsh.cli._simple_repl"
  | eventLoop => "asyncio"

/-- An argument of a handler: the context of the shell, or a text. -/
inductive Argument
  | context
  | text (s : String)
deriving Repr, DecidableEq

/-- Something that reaches the outside. -/
inductive Event
  | probe (program name : String)
  | run (command : String)
  | imported (module : String)
  | called (entry : String) (arguments : List Argument)
  | recorded (entry : String)
  | out (text : String)
  | err (text : String)
  | log (level : Level) (source : LogSource) (message : String)
deriving Repr, DecidableEq

/-! ## The host -/

/-- The host: which names can be run, how commands end, and which programs answer probes. -/
structure Host where
  /-- The names that a probe finds. -/
  executables : List String
  /-- How commands end; all others end with zero. -/
  returncodes : Table String Int
  /-- The programs that answer probes. -/
  probes : List String
  /-- The programs that must not be run. -/
  denied : List String
deriving Inhabited

/-! ## Parts of the shell -/

/-- Where a history keeps its entries. -/
inductive History
  | memory (entries : List String)
  | file (path : Path)
deriving Repr, DecidableEq, Inhabited

/-- What a prompt recalls: entries, newest first, and whether the history was read. -/
structure Recall where
  /-- Whether the history was read. -/
  loaded : Bool
  /-- The entries, newest first. -/
  entries : List String
deriving Repr, DecidableEq, Inhabited

/-- What loads modules: where it searches, where their commands go, and what it tried. -/
structure Loader where
  /-- The directories that are searched, in order. -/
  directories : List Path
  /-- The registry that receives the commands. -/
  registry : RegistryId
  /-- The normal names of the modules that were imported or failed. -/
  attempted : List String
deriving Repr, DecidableEq, Inhabited

/-- What a session knows of its last line. -/
structure Session where
  /-- The line. -/
  name : Option String
  /-- Its commands. -/
  commands : Option (List Command)
  /-- Whether a handler asked to exit. -/
  exitRequested : Bool
deriving Repr, DecidableEq, Inhabited

/-- Who decides whether a name is internal: the session, nobody (then every name is), or a list. -/
inductive Classifier
  | session
  | everything
  | names (internal : List String)
deriving Repr, DecidableEq, Inhabited

/-- What handlers are given besides their arguments. -/
structure Context where
  /-- The registry of the dispatcher. -/
  registry : RegistryId
  /-- Whether there is a loader. -/
  hasLoader : Bool
  /-- Whether there is a session. -/
  hasSession : Bool
deriving Repr, DecidableEq, Inhabited

/-- What becomes of log records: they are only kept, written bare from warnings on, or written with
time, level and source from a level on. -/
inductive LogSink
  | kept
  | bare
  | stamped (least : Nat)
deriving Repr, DecidableEq, Inhabited

/-- The world of a shell. -/
structure World where
  /-- The files. -/
  files : FileTree
  /-- The working directory. -/
  cwd : WorkingDirectory
  /-- The home directory. -/
  home : String
  /-- The home directories of users by name. -/
  accounts : List (String × String)
  /-- The directory of the modules that come with the shell. -/
  builtinsDir : Path
  /-- The present time to the second, as text. -/
  time : String
  /-- The host. -/
  host : Host
  /-- The program that tells whether a command can be run. -/
  probeCommand : String
  /-- What becomes of log records. -/
  logSink : LogSink
  /-- The registries. -/
  registries : Registries
  /-- The loader. -/
  loader : Loader
  /-- The history. -/
  history : History
  /-- What prompts recall of it. -/
  recalled : Recall
  /-- The session. -/
  session : Session
  /-- Who decides whether a name is internal. -/
  classifier : Classifier
  /-- What handlers are given. -/
  context : Context
  /-- The settings that each manager has in memory. -/
  settings : Table Nat Settings
  /-- How many modules were imported. -/
  imports : Nat
  /-- The previous directory of each import of the command that changes it. -/
  previous : Table Nat String
  /-- What reached the outside, oldest first. -/
  trace : List Event
deriving Inhabited

/-- An action of the shell. A fault keeps the world as it is when the fault arises. -/
abbrev Shell (α : Type) := EStateM Fault World α

namespace Shell

/-- Add an event to the trace. -/
def emit (e : Event) : Shell Unit := modify fun w => { w with trace := w.trace ++ [e] }

/-- Write a line to the output. -/
def printLine (text : String) : Shell Unit := emit (.out (text ++ "\n"))

/-- Write a line to the error output. -/
def complainLine (text : String) : Shell Unit := emit (.err (text ++ "\n"))

/-- Log a record, and write it out if the sink says so. -/
def log (level : Level) (source : LogSource) (message : String) : Shell Unit := do
  emit (.log level source message)
  match (← get).logSink with
  | .kept => pure ()
  | .bare => if Level.warning.number ≤ level.number then complainLine message else pure ()
  | .stamped least =>
    if least ≤ level.number then
      complainLine ((← get).time ++ ",000 " ++ level.name ++ " " ++ source.name ++ ": " ++ message)
    else pure ()

/-- Take an answer, or turn its error into a fault. -/
def ofExcept {ε α : Type} (fault : ε → Fault) : Except ε α → Shell α
  | .ok a => pure a
  | .error e => throw (fault e)

/-- Run an action, and a recovery for those faults that satisfy the test. -/
def recover {α : Type} (test : Fault → Bool) (action : Shell α) (recovery : Fault → Shell α) :
    Shell α :=
  tryCatch action fun f => if test f then recovery f else throw f

/-- Run an action and then another, also when the first ends with a fault. -/
def followedBy {α : Type} (action : Shell α) (last : Shell Unit) : Shell α := do
  let a ← tryCatch action fun f => do
    last
    throw f
  last
  pure a

end Shell

end CommandShell
