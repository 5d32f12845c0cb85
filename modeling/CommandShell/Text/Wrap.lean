import CommandShell.Text.Blank
import CommandShell.Text.Digit
import CommandShell.Text.Word

/-! # Wrapping text

Filling lines up to a width. A text is cut into chunks, which are runs of spaces and words; a word
may also be cut behind a hyphen between letters and beside a dash of several hyphens. A chunk that
is longer than a line is cut where the line ends, or behind its last hyphen before that. -/

namespace CommandShell.Text

/-- A character of words that is no digit. -/
def isLetter (c : Char) : Bool := isWordChar c && !isDigit c

/-- A character after which a dash may stand. -/
def beforeDash (c : Char) : Bool :=
  isWordChar c || ['!', '"', '\'', '&', '.', ',', '?'].contains c

/-- A blank between the words of a line. -/
def isLineBlank (c : Char) : Bool :=
  c == ' ' || (0x09 ≤ c.toNat && c.toNat ≤ 0x0D)

/-- Whether a dash of several hyphens with a word behind it starts here. -/
def startsDash (cs : List Char) : Bool :=
  let hyphens := (cs.takeWhile (· == '-')).length
  2 ≤ hyphens && ((cs.drop hyphens).head?.map isWordChar).getD false

/-- Whether a text that was read (last character first) ends in two letters, perhaps with a hyphen
between them: then a word may be cut behind the hyphen that comes next. -/
def joinsBefore : List Char → Bool
  | a :: b :: c :: _ => isLetter a && (isLetter b || b == '-' && isLetter c)
  | [a, b] => isLetter a && isLetter b
  | _ => false

/-- Whether a text starts with two letters, perhaps with a hyphen between them. -/
def joinsAfter : List Char → Bool
  | a :: '-' :: b :: _ => isLetter a && isLetter b
  | a :: b :: _ => isLetter a && isLetter b
  | _ => false

/-- The length of the chunk of a word that starts `taken` characters before `rest`; `before` is all
that was read, last character first. -/
def wordChunk (taken : Nat) (before : List Char) : List Char → Nat
  | [] => taken
  | c :: cs =>
    if 0 < taken ∧ c = '-' ∧ joinsBefore before ∧ joinsAfter cs then taken + 1
    else if 0 < taken ∧ isLineBlank c then taken
    else if 0 < taken ∧ (before.head?.map beforeDash).getD false ∧ startsDash (c :: cs) then taken
    else wordChunk (taken + 1) (c :: before) cs

/-- The length of the chunk that starts here. -/
def chunkLength (before cs : List Char) : Nat :=
  let blanks := (cs.takeWhile isLineBlank).length
  if 0 < blanks then blanks
  else if (before.head?.map beforeDash).getD false && startsDash cs then
    (cs.takeWhile (· == '-')).length
  else wordChunk 0 before cs

/-- The chunks of a text, of which `before` was read, last character first. -/
def chunks : Nat → List Char → List Char → List (List Char)
  | 0, _, _ => []
  | _ + 1, _, [] => []
  | fuel + 1, before, c :: cs =>
    let n := max 1 (chunkLength before (c :: cs))
    let chunk := (c :: cs).take n
    chunk :: chunks fuel (chunk.reverse ++ before) ((c :: cs).drop n)

/-- Whether a chunk holds blanks only. -/
def isBlankChunk (chunk : List Char) : Bool := (trim chunk).isEmpty

/-- The chunks that fit into `width` characters, and the others. -/
def fitting (width : Nat) : List (List Char) → List (List Char) × List (List Char)
  | [] => ([], [])
  | c :: cs =>
    if c.length ≤ width then
      let (line, rest) := fitting (width - c.length) cs
      (c :: line, rest)
    else ([], c :: cs)

/-- Where a chunk that is longer than a line is cut when `space` characters are left. -/
def cutPosition (space : Nat) (chunk : List Char) : Nat :=
  let head := chunk.take space
  let behindHyphen := space - (head.reverse.takeWhile (· != '-')).length
  let hyphen := behindHyphen - 1
  if 0 < behindHyphen ∧ 0 < hyphen ∧ space < chunk.length ∧ (chunk.take hyphen).any (· != '-') then
    behindHyphen
  else space

/-- The lines of chunks. `first` says that no line stands before. -/
def fillLines (width : Nat) : Nat → Bool → List (List Char) → List (List Char)
  | 0, _, _ => []
  | _ + 1, _, [] => []
  | fuel + 1, first, c :: cs =>
    -- Blanks at the start of a line are dropped, but not at the start of the text.
    let cs := if isBlankChunk c && !first then cs else c :: cs
    let (line, rest) := fitting width cs
    let used := line.flatten.length
    let (line, rest) := match rest with
      | long :: more =>
        -- A chunk that fits no line at all fills up this one.
        if width < long.length then
          let n := cutPosition (width - used) long
          (line ++ [long.take n], long.drop n :: more)
        else (line, rest)
      | [] => (line, rest)
    let line := match line.getLast? with
      | some l => if isBlankChunk l then line.dropLast else line
      | none => line
    if line.isEmpty then fillLines width fuel first rest
    else line.flatten :: fillLines width fuel false rest

/-- The lines of a text that fill a width. -/
def wrap (width : Nat) (cs : List Char) : List (List Char) :=
  fillLines width (2 * cs.length + 2) true (chunks cs.length [] cs)

/-- A text with single spaces in the place of its runs of line blanks, and no blanks at its ends. -/
def singleSpaced (cs : List Char) : List Char :=
  trim (go false cs)
where
  /-- Put one space for the blanks that follow; `inRun` says that it is there already. -/
  go (inRun : Bool) : List Char → List Char
    | [] => []
    | c :: cs =>
      if isLineBlank c then if inRun then go true cs else ' ' :: go true cs
      else c :: go false cs

end CommandShell.Text
