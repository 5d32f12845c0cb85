import CommandShell.Json.Basic
import CommandShell.Text.Blank

/-! # Reading JSON

A reader for JSON texts. It accepts what the grammar of JSON accepts, and the names of the infinite
values besides; the first fault is reported with its position. A place in the text is the text from
there on together with its position, so that every fault can name where it stands. -/

namespace CommandShell.Json

/-- What is wrong at a place of a text. -/
inductive Mistake
  | byteOrderMark
  | value
  | memberName
  | colon
  | comma
  | extra
  | openString
  | control
  | badEscape
  | badUnicodeEscape
deriving Repr, DecidableEq

/-- The wording of a mistake. -/
def Mistake.message : Mistake → String
  | .byteOrderMark => "Unexpected UTF-8 BOM (decode using utf-8-sig)"
  | .value => "Expecting value"
  | .memberName => "Expecting property name enclosed in double quotes"
  | .colon => "Expecting ':' delimiter"
  | .comma => "Expecting ',' delimiter"
  | .extra => "Extra data"
  | .openString => "Unterminated string starting at"
  | .control => "Invalid control character at"
  | .badEscape => "Invalid \\escape"
  | .badUnicodeEscape => "Invalid \\uXXXX escape"

/-- Why a text is not read. -/
inductive Fault
  | malformed (mistake : Mistake) (position : Nat)
  | oversized (digits : Nat)
  | nested
deriving Repr, DecidableEq

/-- A place in a text. -/
structure Cursor where
  /-- The text from here on. -/
  rest : List Char
  /-- How many characters precede it. -/
  position : Nat

/-- What a reader gives: a value and the place after it. -/
abbrev Read (α : Type) := Except Fault (α × Cursor)

/-- The mistake at a place. -/
def Cursor.fail (c : Cursor) (m : Mistake) : Except Fault α := .error (.malformed m c.position)

/-- The place `n` characters further on. -/
def Cursor.skip (c : Cursor) (n : Nat) : Cursor := ⟨c.rest.drop n, c.position + n⟩

/-- A blank between the tokens of a JSON text. -/
def isGap (c : Char) : Bool := c == ' ' || c == '\t' || c == '\n' || c == '\r'

/-- The place after the blanks that start here. -/
def Cursor.skipGaps (c : Cursor) : Cursor := c.skip (c.rest.takeWhile isGap).length

/-! ## Strings -/

/-- The value of a hexadecimal digit. -/
def hexValue? (c : Char) : Option Nat :=
  if '0' ≤ c ∧ c ≤ '9' then some (c.toNat - 48)
  else if 'a' ≤ c ∧ c ≤ 'f' then some (c.toNat - 87)
  else if 'A' ≤ c ∧ c ≤ 'F' then some (c.toNat - 55)
  else none

/-- The number that four hexadecimal digits write. -/
def hexQuad? : List Char → Option Nat
  | a :: b :: c :: d :: _ => do
    return (((← hexValue? a) * 16 + (← hexValue? b)) * 16 + (← hexValue? c)) * 16 + (← hexValue? d)
  | _ => none

/-- The character that an escape of one letter stands for. -/
def simpleEscape? : Char → Option Char
  | '"' => some '"'
  | '\\' => some '\\'
  | '/' => some '/'
  | 'b' => some (Char.ofNat 0x08)
  | 'f' => some (Char.ofNat 0x0C)
  | 'n' => some '\n'
  | 'r' => some '\r'
  | 't' => some '\t'
  | _ => none

/-- Read the four digits after `\u`, and the second escape of a pair: the code point and how many
characters of the text it takes after the `u`. Half of a pair alone is a surrogate. The text must go
on behind the digits. -/
def unicodeEscape (c : Cursor) : Except Fault (CodePoint × Nat) :=
  if (c.rest.drop 4).isEmpty then .error (.malformed .badUnicodeEscape (c.position - 1))
  else match hexQuad? c.rest with
    | none => .error (.malformed .badUnicodeEscape (c.position - 1))
    | some high =>
      match c.rest.drop 4 with
      | '\\' :: 'u' :: more =>
        if 0xD800 ≤ high ∧ high ≤ 0xDBFF ∧ (more.drop 4).isEmpty = false then
          match hexQuad? more with
          | none => .error (.malformed .badUnicodeEscape (c.position + 5))
          | some low =>
            if 0xDC00 ≤ low ∧ low ≤ 0xDFFF then
              .ok (.char (Char.ofNat (0x10000 + (high - 0xD800) * 0x400 + (low - 0xDC00))), 10)
            else .ok (.ofUnit high, 4)
        else .ok (.ofUnit high, 4)
      | _ => .ok (.ofUnit high, 4)

/-- Read a string up to its closing quote; `opening` is the position of its opening quote and `text`
what was read, last code point first. -/
def stringBody (opening : Nat) : Nat → List CodePoint → Cursor → Read RawText
  | 0, _, _ => .error (.malformed .openString opening)
  | fuel + 1, text, c =>
    match c.rest with
    | [] => .error (.malformed .openString opening)
    | '"' :: _ => .ok (⟨text.reverse⟩, c.skip 1)
    | ['\\'] => .error (.malformed .openString opening)
    | '\\' :: 'u' :: _ =>
      match unicodeEscape (c.skip 2) with
      | .error e => .error e
      | .ok (point, n) => stringBody opening fuel (point :: text) (c.skip (2 + n))
    | '\\' :: e :: _ =>
      match simpleEscape? e with
      | none => c.fail .badEscape
      | some ch => stringBody opening fuel (.char ch :: text) (c.skip 2)
    | ch :: _ =>
      if ch.toNat < 0x20 then c.fail .control
      else stringBody opening fuel (.char ch :: text) (c.skip 1)

/-- Read a string, from its opening quote on. -/
def string (c : Cursor) : Read RawText :=
  stringBody c.position (c.rest.length + 1) [] (c.skip 1)

/-! ## Numbers -/

/-- The number that a list of ASCII digits writes. -/
def decimalValue (ds : List Char) : Nat := ds.foldl (fun n d => n * 10 + (d.toNat - 48)) 0

/-- The most digits that a whole number may have. -/
def maxDigits : Nat := 4300

/-- The double `mantissa · 10^exponent`, where the mantissa has `digits` digits from its first that
is not zero on. Beyond 400 places before or behind the point it is infinite or zero. -/
def floatOf (negative : Bool) (mantissa digits : Nat) (exponent : Int) : Float :=
  let magnitude : Float :=
    if mantissa = 0 ∨ exponent + digits < -400 then 0.0
    else if exponent + digits > 400 then Float.ofBits 0x7FF0000000000000
    else if exponent < 0 then Float.ofScientific mantissa true (-exponent).toNat
    else Float.ofScientific mantissa false exponent.toNat
  if negative then -magnitude else magnitude

/-- The exponent that starts here, and how many characters it takes. -/
def exponentPart (cs : List Char) : Option (Int × Nat) :=
  match cs with
  | e :: more =>
    if e = 'e' ∨ e = 'E' then
      let (negative, signs, more) := match more with
        | '-' :: r => (true, 1, r)
        | '+' :: r => (false, 1, r)
        | r => (false, 0, r)
      let ds := more.takeWhile Char.isDigit
      if ds.isEmpty then none
      else
        let n : Int := decimalValue ds
        some (if negative then -n else n, 1 + signs + ds.length)
    else none
  | [] => none

/-- The digits of the fraction that starts here. -/
def fractionPart : List Char → List Char
  | '.' :: more => more.takeWhile Char.isDigit
  | _ => []

/-- Read the longest number that starts here. -/
def number (c : Cursor) : Read Json :=
  let negative := c.rest.head? == some '-'
  let signs := if negative then 1 else 0
  let unsigned := c.rest.drop signs
  let whole := match unsigned with
    | '0' :: _ => ['0']
    | cs => cs.takeWhile Char.isDigit
  if whole.isEmpty then c.fail .value
  else
    let afterWhole := unsigned.drop whole.length
    let fraction := fractionPart afterWhole
    let fractionLength := if fraction.isEmpty then 0 else fraction.length + 1
    let exponent := exponentPart (afterWhole.drop fractionLength)
    let length := signs + whole.length + fractionLength + (exponent.map Prod.snd).getD 0
    if fraction.isEmpty && exponent.isNone then
      if whole.length > maxDigits then .error (.oversized whole.length)
      else
        let n : Int := decimalValue whole
        .ok (.int (if negative then -n else n), c.skip length)
    else
      let power := (exponent.map Prod.fst).getD 0 - fraction.length
      let ds := (whole ++ fraction).dropWhile (· == '0')
      .ok (.float (floatOf negative (decimalValue ds) ds.length power), c.skip length)

/-! ## Values -/

/-- The names that stand for values, with their values. -/
def names : List (List Char × Json) := [
  ("null".toList, .null), ("true".toList, .bool true), ("false".toList, .bool false),
  ("NaN".toList, .float (Float.ofBits 0x7FF8000000000000)),
  ("Infinity".toList, .float (Float.ofBits 0x7FF0000000000000)),
  ("-Infinity".toList, .float (Float.ofBits 0xFFF0000000000000))]

/-- Read a name or a number. -/
def scalar (c : Cursor) : Read Json :=
  match names.find? fun (name, _) => name.isPrefixOf c.rest with
  | some (name, j) => .ok (j, c.skip name.length)
  | none => number c

mutual

/-- Read the value that starts here; at most `depth` more arrays and objects may be open. -/
def value : Nat → Nat → Cursor → Read Json
  | 0, _, c => c.fail .value
  | fuel + 1, depth, c =>
    match c.rest with
    | '"' :: _ => (string c).map fun (s, c) => (.str s, c)
    | '[' :: _ =>
      match depth with
      | 0 => .error .nested
      | depth + 1 =>
        let c := (c.skip 1).skipGaps
        match c.rest with
        | ']' :: _ => .ok (.arr [], c.skip 1)
        | _ => (items fuel depth [] c).map fun (js, c) => (.arr js, c)
    | '\x7b' :: _ =>
      match depth with
      | 0 => .error .nested
      | depth + 1 =>
        let c := (c.skip 1).skipGaps
        match c.rest with
        | '\x7d' :: _ => .ok (.obj [], c.skip 1)
        | _ => (members fuel depth {} c).map fun (t, c) => (.ofTable t, c)
    | _ => scalar c

/-- Read the items of an array up to its end; `read` holds those before, last first. -/
def items : Nat → Nat → List Json → Cursor → Read (List Json)
  | 0, _, _, c => c.fail .value
  | fuel + 1, depth, read, c =>
    match value fuel depth c with
    | .error e => .error e
    | .ok (j, c) =>
      let c := c.skipGaps
      match c.rest with
      | ']' :: _ => .ok ((j :: read).reverse, c.skip 1)
      | ',' :: _ => items fuel depth (j :: read) (c.skip 1).skipGaps
      | _ => c.fail .comma

/-- Read the members of an object up to its end; `read` holds those before. -/
def members : Nat → Nat → Table RawText Json → Cursor → Read (Table RawText Json)
  | 0, _, _, c => c.fail .memberName
  | fuel + 1, depth, read, c =>
    match c.rest with
    | '"' :: _ =>
      match string c with
      | .error e => .error e
      | .ok (name, c) =>
        let c := c.skipGaps
        match c.rest with
        | ':' :: _ =>
          match value fuel depth (c.skip 1).skipGaps with
          | .error e => .error e
          | .ok (j, c) =>
            let c := c.skipGaps
            match c.rest with
            | '\x7d' :: _ => .ok (read.put name j, c.skip 1)
            | ',' :: _ => members fuel depth (read.put name j) (c.skip 1).skipGaps
            | _ => c.fail .comma
        | _ => c.fail .colon
    | _ => c.fail .memberName

end

/-- How many arrays and objects may be open at once. -/
def maxDepth : Nat := 986

/-- Read a whole text, with nothing but blanks around its value. -/
def decodeChars (cs : List Char) : Except Fault Json :=
  let start : Cursor := ⟨cs, 0⟩
  match cs with
  | '\uFEFF' :: _ => start.fail .byteOrderMark
  | _ =>
    match value (2 * cs.length + 2) maxDepth start.skipGaps with
    | .error e => .error e
    | .ok (j, c) =>
      let c := c.skipGaps
      if c.rest.isEmpty then .ok j else c.fail .extra

/-- Read a string as JSON. -/
def decode (s : String) : Except Fault Json := decodeChars s.toList

/-! ## Positions in messages -/

/-- A mistake with its line, column and position in the text. -/
def Mistake.located (m : Mistake) (text : List Char) (position : Nat) : String :=
  let before := text.take position
  let line := before.countP (· == '\n') + 1
  let column := (before.reverse.takeWhile (· != '\n')).length + 1
  m.message ++ ": line " ++ toString line ++ " column " ++ toString column ++
    " (char " ++ toString position ++ ")"

end CommandShell.Json
