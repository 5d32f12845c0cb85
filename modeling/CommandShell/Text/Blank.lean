/-! # Blank characters

Which characters count as blank, trimming a text at its blank ends, and cutting it into its words.
Blanks are the white space of the Unicode standard together with the four information separators. -/

namespace CommandShell.Text

/-- A blank: Unicode white space, or one of the information separators U+001C to U+001F. -/
def isBlank (c : Char) : Bool :=
  let n := c.toNat
  (0x09 ≤ n && n ≤ 0x0D) || (0x1C ≤ n && n ≤ 0x20) || n == 0x85 || n == 0xA0 || n == 0x1680 ||
    (0x2000 ≤ n && n ≤ 0x200A) || n == 0x2028 || n == 0x2029 || n == 0x202F || n == 0x205F ||
    n == 0x3000

/-! ## Trimming -/

/-- A text without its leading blanks. -/
def trimStart (cs : List Char) : List Char := cs.dropWhile isBlank

/-- A text without its trailing blanks. -/
def trimEnd (cs : List Char) : List Char := (cs.reverse.dropWhile isBlank).reverse

/-- A text without the blanks at both ends. -/
def trim (cs : List Char) : List Char := trimEnd (trimStart cs)

/-- The empty text has no blanks at its end. -/
@[simp] theorem trimEnd_nil : trimEnd [] = [] := rfl

/-- Trimming at the start goes on behind a blank and stops at any other character. -/
theorem trimStart_cons (c : Char) (cs : List Char) :
    trimStart (c :: cs) = if isBlank c then trimStart cs else c :: cs := by
  simp [trimStart, List.dropWhile_cons]

/-- Trimming at the end goes on before a blank and stops at any other character. -/
theorem trimEnd_append_singleton (cs : List Char) (c : Char) :
    trimEnd (cs ++ [c]) = if isBlank c then trimEnd cs else cs ++ [c] := by
  by_cases h : isBlank c <;> simp [trimEnd, h]

/-- A string without the blanks at both ends. -/
def strip (s : String) : String := String.ofList (trim s.toList)

/-! ## Cutting -/

/-- The pieces of a list between the members that satisfy `p`; there is always at least one. -/
def splitWhere {α : Type} (p : α → Bool) : List α → List (List α)
  | [] => [[]]
  | c :: cs =>
    if p c then [] :: splitWhere p cs
    else match splitWhere p cs with
      | [] => [[c]]
      | w :: ws => (c :: w) :: ws

/-- The empty list is one empty part. -/
@[simp] theorem splitWhere_nil {α : Type} (p : α → Bool) : splitWhere p [] = [[]] := rfl

/-- A list always has a part, whatever it is split at. -/
theorem splitWhere_ne_nil {α : Type} (p : α → Bool) (cs : List α) : splitWhere p cs ≠ [] := by
  cases cs with
  | nil => simp
  | cons c cs =>
    rw [splitWhere]
    split
    · simp
    · split <;> simp

/-- The words of a text: its maximal runs of characters that are not blank. -/
def words (cs : List Char) : List (List Char) :=
  (splitWhere isBlank cs).filter fun w => !w.isEmpty

/-- The lines of a string, cut at line feeds only. -/
def lines (s : String) : List String := (splitWhere (· == '\n') s.toList).map String.ofList

/-- Whether a string starts with the given text. -/
def startsWith (s start : String) : Bool := start.toList.isPrefixOf s.toList

end CommandShell.Text
