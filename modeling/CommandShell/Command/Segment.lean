import CommandShell.Text.Blank

/-! # Segments of a line

A line holds several commands, separated by semicolons. A separator inside quotes or after a
backslash does not count, so the scanner keeps the quoting state of the text read so far
(`Scan.after`). `rawPieces` cuts a line at the separators that count; `segments?` trims the pieces,
drops the blank ones, and refuses a line that leaves a quote open. -/

namespace CommandShell

/-- The quoting state of a scanner. -/
inductive Scan
  | plain
  | escaped
  | single
  | double
  | doubleEscaped
deriving Repr, DecidableEq

namespace Scan

/-- The state after one more character. A backslash protects the next character, except between
single quotes. -/
def step : Scan → Char → Scan
  | plain, c => if c = '\\' then escaped else if c = '\'' then single else
      if c = '"' then double else plain
  | escaped, _ => plain
  | single, c => if c = '\'' then plain else single
  | double, c => if c = '\\' then doubleEscaped else if c = '"' then plain else double
  | doubleEscaped, _ => double

/-- The state after a text. -/
def after (q : Scan) (cs : List Char) : Scan := cs.foldl step q

/-- The empty text leaves the scanner where it is. -/
@[simp] theorem after_nil (q : Scan) : q.after [] = q := rfl

/-- A text moves the scanner by its first character and then by the rest. -/
@[simp] theorem after_cons (q : Scan) (c : Char) (cs : List Char) :
    q.after (c :: cs) = (q.step c).after cs := rfl

/-- A concatenation moves the scanner by its two parts, one after the other. -/
@[simp] theorem after_append (q : Scan) (cs ds : List Char) :
    q.after (cs ++ ds) = (q.after cs).after ds := by
  simp [after]

/-- Whether a quote is open. -/
def isOpen : Scan → Bool
  | plain => false
  | escaped => false
  | single => true
  | double => true
  | doubleEscaped => true

end Scan

namespace Line

/-- What separates the commands of a line. -/
def separator : Char := ';'

/-- The pieces of a text between the separators that count, when it is read in state `q`; there is
always at least one. -/
def rawPieces (q : Scan) : List Char → List (List Char)
  | [] => [[]]
  | c :: cs =>
    if q = .plain ∧ c = separator then [] :: rawPieces .plain cs
    else match rawPieces (q.step c) cs with
      | [] => [[c]]
      | p :: ps => (c :: p) :: ps

/-- The empty text is one empty piece, in whatever state it is read. -/
@[simp] theorem rawPieces_nil (q : Scan) : rawPieces q [] = [[]] := rfl

/-- A text always has a piece, so what is put in front of the first one is never lost. -/
theorem rawPieces_ne_nil (q : Scan) (cs : List Char) : rawPieces q cs ≠ [] := by
  cases cs with
  | nil => simp
  | cons c cs =>
    rw [rawPieces]
    split
    · simp
    · split <;> simp

/-- The trimmed pieces of a line that are not blank, or nothing if a quote is left open. -/
def segments? (line : List Char) : Option (List (List Char)) :=
  if (Scan.plain.after line).isOpen then none
  else some (((rawPieces .plain line).map Text.trim).filter fun s => !s.isEmpty)

/-- A line has no segments exactly if it leaves a quote open. -/
theorem segments?_eq_none_iff (line : List Char) :
    segments? line = none ↔ (Scan.plain.after line).isOpen = true := by
  simp [segments?]

/-- The segments of a line are what trimming leaves of those pieces that are not blank. -/
theorem segments?_eq_some_iff {line : List Char} {ss : List (List Char)} :
    segments? line = some ss ↔ (Scan.plain.after line).isOpen = false ∧
      ((rawPieces .plain line).map Text.trim).filter (fun s => !s.isEmpty) = ss := by
  cases h : (Scan.plain.after line).isOpen <;> simp [segments?, h]

/-- Every segment is the trimmed rest of a piece of the line, and not empty. -/
theorem mem_segments {line : List Char} {ss : List (List Char)} (h : segments? line = some ss)
    {s : List Char} (hs : s ∈ ss) : ∃ p ∈ rawPieces .plain line, Text.trim p = s ∧ s ≠ [] := by
  rw [← (segments?_eq_some_iff.mp h).2] at hs
  obtain ⟨hmap, hempty⟩ := List.mem_filter.mp hs
  obtain ⟨p, hp, rfl⟩ := List.mem_map.mp hmap
  refine ⟨p, hp, rfl, ?_⟩
  intro hnil
  rw [hnil] at hempty
  exact nomatch hempty

end Line

end CommandShell
