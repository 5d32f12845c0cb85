/-! # Tokens of a segment

The words of a command: separated by blanks, tabs and line ends, with quotes and backslashes taken
off. Between double quotes a backslash protects only the quote and itself. A word may be empty if
it is quoted. -/

namespace CommandShell.Token

/-- Why a text has no tokens. -/
inductive Fault
  | openQuote
  | danglingEscape
deriving Repr, DecidableEq

/-- The wording of a fault. -/
def Fault.message : Fault → String
  | .openQuote => "No closing quotation"
  | .danglingEscape => "No escaped character"

/-- Where the reader stands: between two words, inside a word, inside quotes, or just behind a
backslash outside or inside double quotes. -/
inductive Mode
  | between
  | word
  | single
  | double
  | escape
  | doubleEscape
deriving Repr, DecidableEq

/-- What separates words. -/
def isGap (c : Char) : Bool := c == ' ' || c == '\t' || c == '\r' || c == '\n'

/-- Put characters in front of the first word. -/
def extend (cs : List Char) : List (List Char) → List (List Char)
  | [] => [cs]
  | w :: ws => (cs ++ w) :: ws

/-- Read a text in a mode. In every mode but `between` the first word of the answer is what
remains of the word that is being read. -/
def scan : Mode → List Char → Except Fault (List (List Char))
  | .between, [] => .ok []
  | .word, [] => .ok [[]]
  | .single, [] => .error .openQuote
  | .double, [] => .error .openQuote
  | .escape, [] => .error .danglingEscape
  | .doubleEscape, [] => .error .danglingEscape
  | .between, c :: cs =>
    if isGap c then scan .between cs
    else if c = '\\' then scan .escape cs
    else if c = '\'' then scan .single cs
    else if c = '"' then scan .double cs
    else (scan .word cs).map (extend [c])
  | .word, c :: cs =>
    if isGap c then (scan .between cs).map ([] :: ·)
    else if c = '\\' then scan .escape cs
    else if c = '\'' then scan .single cs
    else if c = '"' then scan .double cs
    else (scan .word cs).map (extend [c])
  | .single, c :: cs =>
    if c = '\'' then scan .word cs else (scan .single cs).map (extend [c])
  | .double, c :: cs =>
    if c = '"' then scan .word cs
    else if c = '\\' then scan .doubleEscape cs
    else (scan .double cs).map (extend [c])
  | .escape, c :: cs => (scan .word cs).map (extend [c])
  | .doubleEscape, c :: cs =>
    if c = '"' ∨ c = '\\' then (scan .double cs).map (extend [c])
    else (scan .double cs).map (extend ['\\', c])

/-- The tokens of a text. -/
def ofChars (cs : List Char) : Except Fault (List (List Char)) := scan .between cs

/-- The tokens of a string. -/
def ofString (s : String) : Except Fault (List String) :=
  (ofChars s.toList).map fun ws => ws.map String.ofList

end CommandShell.Token
