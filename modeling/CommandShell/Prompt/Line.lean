import CommandShell.Session.Basic

/-! # Running typed lines

What both prompts do with a line: run it and report what went wrong, without leaving the prompt. Both
take one answer after the other, each a line or an interruption, until a line asks to exit or the input
ends; they differ in what they print meanwhile. -/

namespace CommandShell.Prompt

/-- A hint in grey. -/
def hint (text : String) : Shell Unit :=
  Shell.complainLine ("\x1b[90m" ++ text ++ "\x1b[0m")

/-- Report a fault at the prompt. -/
def report (f : Fault) : Shell Unit :=
  match f with
  | .unknownCommand name => do
    Shell.printLine ("Unknown command: " ++ name.getD "None")
    hint "Type help for available commands."
  | _ => do
    Shell.log .debug .simplePrompt "Command failed"
    Shell.printLine ("Command error: " ++ f.message ++ "\n")

/-- Run a line and report its faults. Whether the prompt is to end. -/
def runLine (line : String) : Shell Bool := do
  Shell.recover Fault.isOrdinary (Session.run line) report
  pure (← get).session.exitRequested

/-- What a prompt prints or logs beside running lines. -/
structure Manner where
  /-- Ask for a line. -/
  ask : Shell Unit
  /-- Go on after an interruption. -/
  interrupted : Shell Unit
  /-- Say goodbye when the input ends. -/
  farewell : Shell Unit

/-- Take the answers to the prompt until a line asks to exit or the input ends. -/
def loop (m : Manner) : List (Option String) → Shell Unit
  | [] => do
    m.ask
    m.farewell
  | none :: rest => do
    m.ask
    m.interrupted
    loop m rest
  | some line :: rest => do
    m.ask
    let line := Text.strip line
    if line = "" then loop m rest
    else if ← runLine line then pure ()
    else loop m rest

end CommandShell.Prompt
