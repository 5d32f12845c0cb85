/-! # Upper case

The upper case of a text as far as it consists of ASCII letters. Some letters that are not ASCII
have such an upper case too: the dotless i, the long s and the ligatures of s and t. All other
characters stay, since what they become is no ASCII letter either. -/

namespace CommandShell.Text

/-- The upper case of a character, where it is written in ASCII letters. -/
def upperChar (c : Char) : List Char :=
  if c = 'ı' then ['I']
  else if c = 'ſ' then ['S']
  else if c = 'ﬅ' ∨ c = 'ﬆ' then ['S', 'T']
  else [c.toUpper]

/-- The upper case of a text. -/
def upper (s : String) : String := String.ofList (s.toList.flatMap upperChar)

end CommandShell.Text
