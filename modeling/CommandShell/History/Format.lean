import CommandShell.Text.Blank
import CommandShell.Text.Utf8

/-! # The file format of histories

Each entry is a blank line, a line `# time`, and the lines of the entry with a `+` before each.
Reading takes every run of consecutive `+` lines as one entry; lines end at line feeds only. -/

namespace CommandShell.HistoryFormat

/-- The line feed. -/
def newline : UInt8 := 10

/-- The mark of the lines of an entry. -/
def mark : UInt8 := 43

/-! ## Writing -/

/-- The lines of an entry as they are written. -/
def entryLines (entry : List Char) : List Char :=
  (Text.splitWhere (· == '\n') entry).flatMap fun l => '+' :: l ++ ['\n']

/-- The bytes that are appended to a history for an entry. -/
def written (time : String) (entry : String) : List UInt8 :=
  Utf8.encode ('\n' :: '#' :: ' ' :: time.toList ++ ['\n'] ++ entryLines entry.toList)

/-! ## Reading -/

/-- The lines of a file, each with its line feed; a last line may have none. -/
def splitLines : List UInt8 → List (List UInt8)
  | [] => []
  | b :: bs =>
    if b = newline then [b] :: splitLines bs
    else match splitLines bs with
      | [] => [[b]]
      | l :: ls => (b :: l) :: ls

/-- Gather the entries among decoded lines. `run` is the text of the run that is being read, if
there is one. -/
def gather (run : Option (List Char)) : List (List Char) → List (List Char)
  | [] => run.toList.map List.dropLast
  | ('+' :: l) :: ls => gather (some (run.getD [] ++ l)) ls
  | _ :: ls => run.toList.map List.dropLast ++ gather none ls

/-- The entries of a file, oldest first. -/
def entries (data : List UInt8) : List String :=
  (gather none ((splitLines data).map Utf8.decodeLossy)).map String.ofList

end CommandShell.HistoryFormat
