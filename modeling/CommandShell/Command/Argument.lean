import CommandShell.Text.Digit

/-! # Arguments

A token behind the name of a command is a value or a parameter. Parameters look like flags; a
negative number is a value, and so is everything behind a bare `--`. -/

namespace CommandShell.Argument

/-- What ends the parameters of a command. -/
def endOfParameters : String := "--"

/-- Drop one line feed at the end of a text. -/
def dropFinalNewline (cs : List Char) : List Char :=
  match cs.getLast? with
  | some '\n' => cs.dropLast
  | _ => cs

/-- A non-empty run of digits, of any script. -/
def isDigits (cs : List Char) : Bool := !cs.isEmpty && cs.all Text.isDigit

/-- Digits, with a point between two of them or without. -/
def isDecimal (cs : List Char) : Bool :=
  let whole := cs.takeWhile Text.isDigit
  isDigits whole && match cs.drop whole.length with
    | [] => true
    | '.' :: fraction => isDigits fraction
    | _ => false

/-- A negative number, perhaps with a line feed behind it. -/
def isNegativeNumber : List Char → Bool
  | '-' :: cs => isDecimal (dropFinalNewline cs)
  | _ => false

/-- Whether a token is a parameter: it starts with a hyphen, is longer than that, and is no
negative number. -/
def isParameter (token : String) : Bool :=
  match token.toList with
  | '-' :: c :: cs => !isNegativeNumber ('-' :: c :: cs)
  | _ => false

/-- The values and the parameters among tokens, each in order; a bare `--` is dropped and makes
everything behind it a value. -/
def classify : List String → List String × List String
  | [] => ([], [])
  | t :: ts =>
    if t = endOfParameters then (ts, [])
    else
      let (values, parameters) := classify ts
      if isParameter t then (values, t :: parameters) else (t :: values, parameters)

end CommandShell.Argument
