import CommandShell.Text.CodePoint
import CommandShell.Text.Printable

/-! # Quoted text

A string as it is shown inside messages: between quotes, with a backslash before the quote and the
backslash, short escapes for tab, line feed and carriage return, and hexadecimal escapes for every
other character that is not printable. A text that may hold surrogates is shown alike, each
surrogate as an escape (`RawText.quoted`). -/

namespace CommandShell.Text

/-- The lower-case hexadecimal digits of `n`, padded with zeros on the left to `width`. -/
def hexadecimal (width n : Nat) : List Char :=
  let digits := Nat.toDigits 16 n
  List.replicate (width - digits.length) '0' ++ digits

/-- Single quotes stand around a text, unless it holds some and no double quotes. -/
def quoteMark (cs : List Char) : Char :=
  if cs.contains '\'' && !cs.contains '"' then '"' else '\''

/-- A character as the hexadecimal escape of its code point. -/
def escapeChar (c : Char) : List Char :=
  if c.toNat ≤ 0xFF then '\\' :: 'x' :: hexadecimal 2 c.toNat
  else if c.toNat ≤ 0xFFFF then '\\' :: 'u' :: hexadecimal 4 c.toNat
  else '\\' :: 'U' :: hexadecimal 8 c.toNat

/-- A character as itself if it is ASCII, and else as its escape. -/
def asciiChar (c : Char) : List Char := if c.toNat < 0x80 then [c] else escapeChar c

/-- One character of a text that stands between two `mark`s. -/
def quoteChar (mark c : Char) : List Char :=
  if c = mark ∨ c = '\\' then ['\\', c]
  else if c = '\t' then ['\\', 't']
  else if c = '\n' then ['\\', 'n']
  else if c = '\r' then ['\\', 'r']
  else if isPrintable c then [c]
  else escapeChar c

/-- A string between quotes, with its unprintable characters escaped. -/
def quoted (s : String) : String :=
  let mark := quoteMark s.toList
  String.ofList (mark :: s.toList.flatMap (quoteChar mark) ++ [mark])

/-- One code point of a text that stands between two `mark`s. -/
def quotePoint (mark : Char) : CodePoint → List Char
  | .char c => quoteChar mark c
  | .surrogate offset => '\\' :: 'u' :: hexadecimal 4 (CodePoint.surrogate offset).number

end CommandShell.Text

namespace CommandShell

/-- A text between quotes, with its surrogates and its unprintable characters escaped. -/
def RawText.quoted (t : RawText) : String :=
  let mark := Text.quoteMark (t.points.map CodePoint.toChar)
  String.ofList (mark :: t.points.flatMap (Text.quotePoint mark) ++ [mark])

end CommandShell
