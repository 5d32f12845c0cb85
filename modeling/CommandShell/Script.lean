import CommandShell.Json.Basic

/-! # Commands as data

What stands behind the name of a command. A handler is a list of actions or one of the commands
that come with the shell; a module is what an import of its directory does. Both are data, so that
every run of the shell is determined by what it is given. -/

namespace CommandShell

/-- How a fault raised by a script is treated on its way out. -/
inductive Family
  | grammar
  | dependency
  | value
  | lookup
  | ordinary
  | escaping
deriving Repr, DecidableEq

/-- A fault that a script raises. -/
structure Raise where
  /-- The name of the kind of fault. -/
  kind : String
  /-- How it is treated. -/
  family : Family
  /-- Its text. -/
  message : Option String
deriving Repr, DecidableEq

/-- What a command is registered with. -/
structure Declaration where
  /-- The name, as typed. -/
  name : String
  /-- What it is for. -/
  description : String
  /-- How to use it. -/
  usage : Option String
  /-- Its other names. -/
  aliases : List String
  /-- Whether the handler takes the context of the shell as its first argument. -/
  passContext : Bool
deriving Repr, DecidableEq

/-- One action of a handler or of a module. -/
inductive Action
  | unknown (name : Option String)
  | raise (fault : Raise)
  | print (text : String)
  | finish (value : Json)
  | run (line : String)
  | setInput (line : String)
  | define (declaration : Declaration) (body : List Action)
  | undefine (name : String)
  | record (entry : String)
  | load (name : String)
deriving Inhabited

/-- The commands that come with the shell. -/
inductive Builtin
  | cd
  | config
  | echo
  | help
  | history
  | pwd
  | quit
deriving Repr, DecidableEq

/-- What runs when a command is called. A builtin carries the number of the import that made it,
since each import has a memory of its own. -/
inductive Handler
  | script (body : List Action)
  | builtin (command : Builtin) (origin : Nat)

/-- A registered command. -/
structure Entry where
  /-- Tells entries apart, also those that look alike; it is given when an entry is registered. -/
  serial : Nat
  /-- The name, as typed. -/
  name : String
  /-- What it is for. -/
  description : String
  /-- How to use it. -/
  usage : Option String
  /-- Its other names. -/
  aliases : List String
  /-- Whether the handler takes the context of the shell as its first argument. -/
  passContext : Bool
  /-- What runs when it is called. -/
  handler : Handler

/-- The entry of a declaration: the usage of a command is its name unless something else is said. -/
def Declaration.entry (d : Declaration) (handler : Handler) : Entry where
  serial := 0
  name := d.name
  description := d.description
  usage := match d.usage with
    | none => some d.name
    | some "" => some d.name
    | some u => some u
  aliases := d.aliases
  passContext := d.passContext
  handler := handler

/-- What importing a module does. -/
inductive Module
  | unreadable
  | script (body : List Action)
  | builtin (command : Builtin)

/-! ## The commands that come with the shell -/

namespace Builtin

/-- All of them, in the order of their names. -/
def all : List Builtin := [cd, config, echo, help, history, pwd, quit]

/-- The name of the command and of the directory of its module. -/
def name : Builtin → String
  | cd => "cd"
  | config => "config"
  | echo => "echo"
  | help => "help"
  | history => "history"
  | pwd => "pwd"
  | quit => "quit"

/-- What each of them is registered with. -/
def declaration : Builtin → Declaration
  | cd => ⟨"cd", "Change working directory", some "cd [dir|-]", [], false⟩
  | config => ⟨"config", "Show or change settings", some "config [set K V|del K]", [], false⟩
  | echo => ⟨"echo", "Print arguments", some "echo [words...]", [], false⟩
  | help => ⟨"help", "Show available commands", some "help", [], true⟩
  | history => ⟨"history", "Show executed commands", some "history [n]", [], true⟩
  | pwd => ⟨"pwd", "Print working directory", none, [], false⟩
  | quit => ⟨"quit", "Exit the REPL", none, ["exit", "q"], false⟩

end Builtin

end CommandShell
