import CommandShell.Fault

/-! # Templates

A template is a text with directives: `%%` stands for a percent sign, and `%(name)s` for a
parameter. Between the name and the letter at the end a directive may hold flags, a width, a
precision and a size, in this order; the letter decides how the parameter is shown.

A directive takes the value that is on offer. At first these are all parameters together; a name
puts its parameter on offer instead. What was taken is gone, so a directive without name finds a
value only when it comes first. -/

namespace CommandShell

/-- What a name in a template stands for. -/
structure Parameter where
  /-- Its text. -/
  text : String
  /-- How it is shown as a value. -/
  shown : String
  /-- Whether it counts as the number zero; no parameter is any other number. -/
  isZero : Bool
deriving Repr, DecidableEq

namespace Parameter

/-- A parameter whose value is a text. -/
def ofText (t : RawText) : Parameter := ⟨t.toString, t.quoted, false⟩

/-- A parameter whose value is no text and looks the same either way. -/
def ofValue (s : String) : Parameter := ⟨s, s, false⟩

/-- A parameter whose value is a path. -/
def ofPath (p : Path) : Parameter :=
  ⟨p.toString, "PosixPath(" ++ p.text.quoted ++ ")", false⟩

/-- The truth value of what does not hold. It counts as zero. -/
def no : Parameter := ⟨"False", "False", true⟩

end Parameter

namespace Template

/-- A directive. -/
structure Directive where
  /-- Whether blanks are added on the right. -/
  leftAligned : Bool
  /-- What stands before a number that is not negative. -/
  sign : List Char
  /-- Whether a number is written with its base or with its point. -/
  alternate : Bool
  /-- Whether a number is filled up with zeros. -/
  zeroFilled : Bool
  /-- The least number of characters. -/
  width : Nat
  /-- The greatest number of characters of a text, or the number of digits. -/
  precision : Option Nat
  /-- The letter at its end. -/
  conversion : CodePoint
deriving Repr, DecidableEq

/-! ## Reading a directive -/

/-- The flags that a directive may have. -/
def flags : List CodePoint := ['-', '+', ' ', '#', '0'].map .char

/-- The sizes that a directive may have, which mean nothing. -/
def sizes : List CodePoint := ['h', 'l', 'L'].map .char

/-- Whether a code point is an ASCII digit. -/
def isDigit : CodePoint → Bool
  | .char c => c.isDigit
  | .surrogate _ => false

/-- The number that ASCII digits write. -/
def number (digits : List CodePoint) : Nat :=
  digits.foldl (fun n c => 10 * n + (c.number - 48)) 0

/-- The greatest width that is a number of the machine. -/
def maxWidth : Nat := Decimal.twoTo 63 - 1

/-- The greatest precision. -/
def maxPrecision : Nat := Decimal.twoTo 31 - 1

/-- The least width that no memory holds. -/
def widthLimit : Nat := Decimal.twoTo 31

/-- The key in parentheses that starts here, and the rest behind its closing parenthesis; `depth`
parentheses are open. -/
def readKey (depth : Nat) : List CodePoint → Option (List CodePoint × List CodePoint)
  | [] => none
  | c :: cs =>
    if c = .char ')' ∧ depth = 1 then some ([], cs)
    else
      let depth :=
        if c = .char '(' then depth + 1 else if c = .char ')' then depth - 1 else depth
      (readKey depth cs).map fun (key, rest) => (c :: key, rest)

/-- The value on offer behind the key that starts here, if one does, and the rest of the text. -/
def offer (parameters : List (String × Parameter)) (value : Option Parameter) :
    List CodePoint → Except TemplateFault (Option Parameter × List CodePoint)
  | .char '(' :: cs =>
    match readKey 1 cs with
    | none => .error .incompleteKey
    | some (key, rest) =>
      match parameters.find? fun (name, _) => RawText.ofString name = ⟨key⟩ with
      | some (_, v) => .ok (some v, rest)
      | none => .error (.unnamed ⟨key⟩)
  | cs => .ok (value, cs)

/-- The number that starts here, in digits or as a star, which takes the value on offer. The answer
holds the value that is left and the rest of the text. -/
def readCount (limit : Nat) (excess : TemplateFault) (value : Option Parameter) :
    List CodePoint → Except TemplateFault (Nat × Option Parameter × List CodePoint)
  | .char '*' :: cs =>
    match value with
    | some v => if v.isZero then .ok (0, none, cs) else .error .mismatched
    | none => .error .mismatched
  | cs =>
    let n := number (cs.takeWhile isDigit)
    if limit < n then .error excess else .ok (n, value, cs.dropWhile isDigit)

/-- The precision that starts here, if one does. -/
def readPrecision (value : Option Parameter) :
    List CodePoint → Except TemplateFault (Option Nat × Option Parameter × List CodePoint)
  | .char '.' :: cs =>
    (readCount maxPrecision .precisionTooBig value cs).map fun (n, value, cs) =>
      (some n, value, cs)
  | cs => .ok (none, value, cs)

/-- A size that starts here is skipped. -/
def skipSize : List CodePoint → List CodePoint
  | c :: cs => if sizes.contains c then cs else c :: cs
  | [] => []

/-- Read the flags, the width, the precision and the letter of a directive. -/
def readFields (value : Option Parameter) (cs : List CodePoint) :
    Except TemplateFault (Directive × Option Parameter × List CodePoint) := do
  let given := cs.takeWhile flags.contains
  let (width, value, cs) ←
    readCount maxWidth .widthTooBig value (cs.dropWhile flags.contains)
  let (precision, value, cs) ← readPrecision value cs
  match skipSize cs with
  | [] => .error .incomplete
  | conversion :: rest =>
    let has (flag : Char) := given.contains (.char flag)
    let sign := if has '+' then ['+'] else if has ' ' then [' '] else []
    .ok (⟨has '-', sign, has '#', has '0', width, precision, conversion⟩, value, rest)

/-! ## Showing a value -/

/-- A value as its letter shows it, before it is filled up to a width. -/
structure Shown where
  /-- The sign and the base of a number. -/
  head : List Char
  /-- The digits or the text. -/
  body : List Char
  /-- Whether it is a number, which may be filled up with zeros. -/
  isNumber : Bool
deriving Repr, DecidableEq

/-- A text is cut to the precision of a directive. -/
def showText (d : Directive) (cs : List Char) : Shown :=
  match d.precision with
  | some n => ⟨[], cs.take n, false⟩
  | none => ⟨[], cs, false⟩

/-- The point before the digits of a fraction; without digits the point is shown on demand only. -/
def fraction (d : Directive) (digits : Nat) : List Char :=
  (if 0 < digits || d.alternate then ['.'] else []) ++ List.replicate digits '0'

/-- The base and the digits of zero, for the letters that show a number. -/
def zeroDigits? (d : Directive) (letter : Char) : Option (List Char × List Char) :=
  let whole := List.replicate (max 1 (d.precision.getD 1)) '0'
  let places := d.precision.getD 6
  let base (c : Char) := if d.alternate then ['0', c] else []
  match letter with
  | 'd' | 'i' | 'u' => some ([], whole)
  | 'o' | 'x' | 'X' => some (base letter, whole)
  | 'e' | 'E' => some ([], '0' :: fraction d places ++ [letter, '+', '0', '0'])
  | 'f' | 'F' => some ([], '0' :: fraction d places)
  | 'g' | 'G' => some ([], '0' :: if d.alternate then fraction d (max 1 places - 1) else [])
  | _ => none

/-- A value as a single character: zero as the character of that number, and a text that is one. -/
def character? (value : Parameter) : Option Char :=
  if value.isZero then some (Char.ofNat 0)
  else match value.text.toList with
    | [c] => if value = .ofText value.text then some c else none
    | _ => none

/-- A value as a directive shows it. `position` is that of its letter in the template. -/
def showValue (d : Directive) (position : Nat) (value : Parameter) :
    Except TemplateFault Shown :=
  match d.conversion with
  | .char 's' => .ok (showText d value.text.toList)
  | .char 'r' => .ok (showText d value.shown.toList)
  | .char 'a' => .ok (showText d (value.shown.toList.flatMap Text.asciiChar))
  | .char 'c' =>
    match character? value with
    | some c => .ok ⟨[], [c], false⟩
    | none => .error .mismatched
  | mark =>
    match zeroDigits? d mark.toChar with
    | some (base, digits) =>
      if value.isZero then .ok ⟨d.sign ++ base, digits, true⟩ else .error .mismatched
    | none => .error (.unsupported mark position)

/-- What was shown, filled up to the width of a directive: with blanks behind or in front of it, or
with zeros between its head and its body. -/
def pad (d : Directive) (s : Shown) : List Char :=
  let missing := d.width - (s.head.length + s.body.length)
  if d.leftAligned then s.head ++ s.body ++ List.replicate missing ' '
  else if s.isNumber && d.zeroFilled then s.head ++ List.replicate missing '0' ++ s.body
  else List.replicate missing ' ' ++ s.head ++ s.body

/-- What a directive stands for, given the value on offer. -/
def convert (d : Directive) (position : Nat) :
    Option Parameter → Except TemplateFault (List Char)
  | none => .error .mismatched
  | some v =>
    match showValue d position v with
    | .error e => .error e
    | .ok s => if widthLimit ≤ d.width then .error .outOfMemory else .ok (pad d s)

/-! ## Filling in -/

/-- All parameters as one value. -/
def allOf (parameters : List (String × Parameter)) : Parameter :=
  let members := parameters.map fun (key, v) => Text.quoted key ++ ": " ++ v.shown
  .ofValue ("\x7b" ++ ", ".intercalate members ++ "\x7d")

/-- Fill in what is left of a template of `length` code points while a value is on offer. -/
def fillFrom (parameters : List (String × Parameter)) (length : Nat) :
    Nat → Option Parameter → List CodePoint → Except TemplateFault (List Char)
  | 0, _, _ => .ok []
  | _ + 1, _, [] => .ok []
  | fuel + 1, value, .char '%' :: .char '%' :: cs =>
    (fillFrom parameters length fuel value cs).map ('%' :: ·)
  | fuel + 1, value, .char '%' :: cs => do
    let (value, rest) ← offer parameters value cs
    let (directive, value, rest) ← readFields value rest
    let text ← convert directive (length - rest.length - 1) value
    let more ← fillFrom parameters length fuel none rest
    pure (text ++ more)
  | fuel + 1, value, c :: cs => (fillFrom parameters length fuel value cs).map (c.toChar :: ·)

/-- Fill in a template. -/
def fill (parameters : List (String × Parameter)) (template : RawText) :
    Except TemplateFault String :=
  let cs := template.points
  (fillFrom parameters cs.length (cs.length + 1) (some (allOf parameters)) cs).map String.ofList

end Template

end CommandShell
