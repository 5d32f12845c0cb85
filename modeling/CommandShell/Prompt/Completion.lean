import CommandShell.Session.Basic

/-! # Completion

At the start of a segment the names of commands are offered, registered ones with their description
and those of modules that are not loaded yet. -/

namespace CommandShell.Prompt

/-- An offered completion. -/
structure Completion where
  /-- The whole name. -/
  text : String
  /-- How many typed characters it replaces. -/
  replaced : Nat
  /-- What is shown beside it. -/
  description : String
deriving Repr, DecidableEq

/-- What is typed behind the last semicolon, without leading blanks. -/
def typedWord (text : List Char) : List Char :=
  Text.trimStart (text.reverse.takeWhile (· != ';')).reverse

/-- Whether nothing is offered for a word: it goes on behind a blank, or is a host command. -/
def offersNothing (word : List Char) : Bool := word.contains ' ' || word.head? == some '!'

/-- The completions of what is typed. -/
def completions (text : String) : Shell (List Completion) := do
  let word := typedWord text.toList
  if offersNothing word then pure []
  else
    let w ← get
    let registered := (w.registries.get w.context.registry).completions
    let names := (← Loader.available).foldl (fun t n => t.putNew n "command module") registered
    let sorted := names.toList.mergeSort fun a b => decide (a.1 ≤ b.1)
    pure ((sorted.filter fun (n, _) => word.isPrefixOf n.toList).map fun (n, d) =>
      ⟨n, word.length, d⟩)

end CommandShell.Prompt
