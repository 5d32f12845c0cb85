import CommandShell.Text.Upper
import CommandShell.World

/-! # Log levels by name

Settings name the least level that is written out. Names count in either case, and an unknown name
stands for warnings. -/

namespace CommandShell.Program

/-- The numbers of the levels that have a name. -/
def levels : List (String × Nat) :=
  [("CRITICAL", 50), ("FATAL", 50), ("ERROR", 40), ("WARNING", Level.warning.number),
    ("WARN", Level.warning.number), ("INFO", Level.info.number), ("DEBUG", Level.debug.number),
    ("NOTSET", 0)]

/-- How a log record looks when nothing is said about it; its name is refused as a level. -/
def plainRecord : String := "%(levelname)s:%(name)s:%(message)s"

/-- The number of the level of a name. Two names stand for how records are written instead. -/
def levelNamed (name : String) : Except Fault Nat :=
  let name := Text.upper name
  match levels.lookup name with
  | some n => .ok n
  | none =>
    if name = "BASIC_FORMAT" then .error (.badLevel plainRecord)
    else if name = "_STYLES" then .error .wrongLevel
    else .ok Level.warning.number

/-- Write out log records with time and source, from the level of a name on. -/
def startLogging (verbose : Bool) (name : String) : Shell Unit := do
  let least ← if verbose then pure Level.debug.number else Shell.ofExcept id (levelNamed name)
  modify fun w => { w with logSink := .stamped least }

end CommandShell.Program
