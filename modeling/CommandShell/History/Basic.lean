import CommandShell.Files
import CommandShell.History.Format

/-! # Histories

The log of what was run, in memory or in a file. Entries are only ever added. A prompt recalls the
history through a list of its own, which is read from the history once. -/

namespace CommandShell

namespace History

/-- All entries, oldest first. -/
def entries : History → Shell (List String)
  | .memory es => pure es
  | .file path => do
    if ← Files.reaches path then
      let data ← Files.readBytes path
      pure (HistoryFormat.entries data)
    else pure []

/-- The last `n` of a list of entries. -/
def lastOf (n : Int) (es : List String) : List String :=
  if n ≤ 0 then [] else es.drop (es.length - n.toNat)

/-- Prepare a history that is kept in a file: its directory is made. -/
def openFile (path : Path) : Shell History := do
  Files.makeDirectories path.parent
  pure (.file path)

end History

/-- The entries of the history of the shell, oldest first. -/
def historyEntries : Shell (List String) := do
  (← get).history.entries

/-- Add an entry to the history of the shell. -/
def record (entry : String) : Shell Unit := do
  Shell.log .debug .history ("History += " ++ Text.quoted entry)
  let w ← get
  match w.history with
  | .memory es => set { w with history := .memory (es ++ [entry]) }
  | .file path => Files.appendBytes path (HistoryFormat.written w.time entry)
  Shell.emit (.recorded entry)

/-! ## Recall at a prompt -/

namespace Recall

/-- Nothing is recalled yet. -/
def fresh : Recall := ⟨false, []⟩

/-- Keep a line that was typed. -/
def append (r : Recall) (line : String) : Recall := { r with entries := line :: r.entries }

/-- What is recalled, newest first. The first time this is what the history holds. -/
def load : Shell (List String) := do
  if (← get).recalled.loaded then pure (← get).recalled.entries
  else
    let es ← historyEntries
    modify fun w => { w with recalled := ⟨true, es.reverse⟩ }
    pure es.reverse

end Recall

end CommandShell
