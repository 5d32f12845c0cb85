import CommandShell.Json.Basic

/-! # Writing JSON

The text of a value in the form in which files are kept: one item or member a line, two blanks a
level, everything but ASCII escaped. -/

namespace CommandShell.Json

/-- A UTF-16 unit as an escape. -/
def unitEscape (n : Nat) : List Char := '\\' :: 'u' :: Text.hexadecimal 4 n

/-- One character inside a JSON string. -/
def escapeChar (c : Char) : List Char :=
  if c = '"' ∨ c = '\\' then ['\\', c]
  else if c = '\n' then ['\\', 'n']
  else if c = '\r' then ['\\', 'r']
  else if c = '\t' then ['\\', 't']
  else if c.toNat = 0x0C then ['\\', 'f']
  else if c.toNat = 0x08 then ['\\', 'b']
  else if 0x20 ≤ c.toNat ∧ c.toNat ≤ 0x7E then [c]
  else if c.toNat ≤ 0xFFFF then unitEscape c.toNat
  else
    let n := c.toNat - 0x10000
    unitEscape (0xD800 + n / 0x400) ++ unitEscape (0xDC00 + n % 0x400)

/-- One code point inside a JSON string. -/
def escapePoint : CodePoint → List Char
  | .char c => escapeChar c
  | .surrogate offset => unitEscape (CodePoint.surrogate offset).number

/-- A JSON string. -/
def encodeString (s : RawText) : String :=
  String.ofList ('"' :: s.points.flatMap escapePoint ++ ['"'])

/-- A line break followed by the indentation of a level. -/
def lineBreak (level : Nat) : String := String.ofList ('\n' :: List.replicate (2 * level) ' ')

mutual

/-- A value whose own line stands at the given level. -/
def encodeAt (level : Nat) : Json → String
  | .null => "null"
  | .bool true => "true"
  | .bool false => "false"
  | .int n => toString n
  | .float x => floatText textLayout x
  | .str s => encodeString s
  | .arr [] => "[]"
  | .arr items =>
    "[" ++ lineBreak (level + 1) ++
      ("," ++ lineBreak (level + 1)).intercalate (encodeAll (level + 1) items) ++
      lineBreak level ++ "]"
  | .obj [] => "\x7b\x7d"
  | .obj members =>
    "\x7b" ++ lineBreak (level + 1) ++
      ("," ++ lineBreak (level + 1)).intercalate (encodeMembers (level + 1) members) ++
      lineBreak level ++ "\x7d"

/-- The items of an array, each at the given level. -/
def encodeAll (level : Nat) : List Json → List String
  | [] => []
  | j :: js => j.encodeAt level :: encodeAll level js

/-- The members of an object, each at the given level. -/
def encodeMembers (level : Nat) : List (RawText × Json) → List String
  | [] => []
  | (k, j) :: rest => (encodeString k ++ ": " ++ j.encodeAt level) :: encodeMembers level rest

end

/-- The text of a value. -/
def encode (j : Json) : String := j.encodeAt 0

mutual

/-- The text of a value on a single line, without blanks. -/
def compact : Json → String
  | .null => "null"
  | .bool true => "true"
  | .bool false => "false"
  | .int n => toString n
  | .float x => floatText textLayout x
  | .str s => encodeString s
  | .arr items => "[" ++ ",".intercalate (compactAll items) ++ "]"
  | .obj members => "\x7b" ++ ",".intercalate (compactMembers members) ++ "\x7d"

/-- The items of an array on a single line. -/
def compactAll : List Json → List String
  | [] => []
  | j :: js => j.compact :: compactAll js

/-- The members of an object on a single line. -/
def compactMembers : List (RawText × Json) → List String
  | [] => []
  | (k, j) :: rest => (encodeString k ++ ":" ++ j.compact) :: compactMembers rest

end

end CommandShell.Json
