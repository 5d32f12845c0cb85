import CommandShell.Prompt.Line

/-! # The rich prompt

It reads single keys into a line that is being typed. The return key or a line feed submits the
line, Ctrl+C drops it, and Ctrl+D ends the input when nothing is typed. -/

namespace CommandShell.Prompt

/-- A key that the rich prompt tells apart. -/
inductive Key
  | submit
  | drop
  | close
  | insert (c : Char)
deriving Repr, DecidableEq

/-- The key of a character. -/
def Key.ofChar (c : Char) : Key :=
  if c = '\r' ∨ c = '\n' then .submit
  else if c.toNat = 3 then .drop
  else if c.toNat = 4 then .close
  else .insert c

/-- The answers to the prompt that are typed key by key, when some characters, the last one first, are
typed already. -/
def typedAnswers (typed : List Char) : List Key → List (Option String)
  | [] => []
  | .submit :: rest => some (String.ofList typed.reverse) :: typedAnswers [] rest
  | .drop :: rest => typedAnswers [] rest
  | .close :: rest => if typed.isEmpty then [] else typedAnswers typed rest
  | .insert c :: rest => typedAnswers (c :: typed) rest

/-- How the rich prompt asks for lines. That it starts to wait for keys is logged. -/
def Manner.rich : Manner where
  ask := Shell.log .debug .eventLoop "Using selector: EpollSelector"
  interrupted := pure ()
  farewell := Shell.printLine "Goodbye!"

/-- The greeting of the rich prompt. -/
def richBanner : Shell Unit := do
  Shell.printLine "cmdsh - Tab: completion | Ctrl+R: search history | Ctrl+D: exit"
  Shell.printLine "help for commands"
  Shell.printLine ""

/-- The rich prompt, to which some answers are given. -/
def richOn (answers : List (Option String)) : Shell Unit := do
  richBanner
  loop .rich answers

/-- The rich prompt, at which the keys are typed and then Ctrl+C and Ctrl+D. -/
def rich (keys : String) : Shell Unit :=
  richOn (typedAnswers [] (keys.toList.map Key.ofChar ++ [.drop, .close]))

end CommandShell.Prompt
