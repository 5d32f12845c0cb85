import CommandShell.Command.Argument
import CommandShell.Command.Basic
import CommandShell.Command.Segment
import CommandShell.Command.Token

/-! # Reading a line

From a line to its commands. A segment that starts with `!` goes to the host, and so does one whose
first token is the name of no internal command. Who knows the internal names is asked segment by
segment, and asking may have effects; so reading is done in any monad. -/

namespace CommandShell

/-- What a segment says before it is known whether its name is internal. -/
inductive Reading
  | nothing
  | forHost (text : String)
  | named (name : String) (arguments : List String)
deriving Repr, DecidableEq

namespace Reading

/-- The first word of a segment is a name, the others are its arguments. -/
def ofWords : List (List Char) → Reading
  | [] => .nothing
  | t :: ts => .named (String.ofList t) (ts.map String.ofList)

/-- Read a segment; a leading `!` marks it for the host. -/
def ofSegment (segment : List Char) : Except Token.Fault Reading :=
  match segment with
  | '!' :: rest =>
    let text := Text.trim rest
    .ok (if text.isEmpty then .nothing else .forHost (String.ofList text))
  | _ => (Token.ofChars segment).map ofWords

/-- Without the mark for the host, a segment is read by its tokens alone. -/
theorem ofSegment_of_unmarked {segment : List Char} (h : segment.head? ≠ some '!') :
    ofSegment segment = (Token.ofChars segment).map ofWords := by
  unfold ofSegment
  split
  · exact absurd rfl h
  · rfl

/-- The command of a segment that was read, once it is known whether its name is internal. -/
def command (segment : List Char) (isInternal : Bool) : Reading → Option Command
  | .nothing => none
  | .forHost text => some (.ofSystem text)
  | .named name arguments =>
    if isInternal then
      let (values, parameters) := Argument.classify arguments
      some (.internal name values parameters)
    else some (.ofSystem (String.ofList segment))

end Reading

namespace Line

variable {m : Type → Type} [Monad m]

/-- The command of a segment, if it holds one. Only a name is asked about. -/
def readSegment (ask : String → m Bool) (segment : List Char) :
    m (Except Token.Fault (Option Command)) :=
  match Reading.ofSegment segment with
  | .error e => pure (.error e)
  | .ok (.named name arguments) => do
    let isInternal ← ask name
    pure (.ok (Reading.command segment isInternal (.named name arguments)))
  | .ok r => pure (.ok (r.command segment true))

/-- The commands of segments, in order; the first fault ends the reading. -/
def readSegments (ask : String → m Bool) : List (List Char) → m (Except Token.Fault (List Command))
  | [] => pure (.ok [])
  | s :: ss => do
    match ← readSegment ask s with
    | .error e => pure (.error e)
    | .ok c => do
      match ← readSegments ask ss with
      | .error e => pure (.error e)
      | .ok cs => pure (.ok (c.toList ++ cs))

/-- The commands of a line, or why it has none. -/
def read (ask : String → m Bool) (line : List Char) : m (Except Token.Fault (List Command)) :=
  match segments? line with
  | none => pure (.error .openQuote)
  | some ss => readSegments ask ss

end Line

/-- The first word of a text as the host sees it: its first token, or its first run of characters
that are not blank when it has no tokens. -/
def executableName (text : String) : String :=
  match Token.ofString text with
  | .ok (t :: _) => t
  | .ok [] => ""
  | .error _ => ((Text.words text.toList).head?.map String.ofList).getD ""

end CommandShell
