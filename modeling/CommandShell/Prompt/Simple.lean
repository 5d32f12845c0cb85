import CommandShell.Prompt.Line

/-! # The simple prompt

It reads whole lines. Each answer to the prompt is a line, or an interruption; after the last answer
the input ends. -/

namespace CommandShell.Prompt

/-- The greeting of the simple prompt. -/
def simpleBanner : String := "cmdsh - type help for commands, Ctrl+D to exit"

/-- How the simple prompt asks for lines. -/
def Manner.simple (prompt : String) : Manner where
  ask := Shell.emit (.out prompt)
  interrupted := Shell.printLine ""
  farewell := Shell.printLine "\nGoodbye!"

/-- The simple prompt. -/
def simple (prompt : String) (answers : List (Option String)) : Shell Unit := do
  Shell.printLine simpleBanner
  loop (.simple prompt) answers

end CommandShell.Prompt
