import CommandShell.Table
import CommandShell.Text.Quoted
import CommandShell.Decimal.Shortest

/-! # JSON values

The value type, the layouts of its numbers, and the two ways a value is named in messages: its
display form and the name of its kind. -/

namespace CommandShell

/-- A JSON value. Whole numbers are exact; a number written with a point or an exponent is a
double. Strings and names may hold surrogates, since their escapes can write them. The members of an
object keep their order. -/
inductive Json
  | null
  | bool (b : Bool)
  | int (n : Int)
  | float (x : Float)
  | str (s : RawText)
  | arr (items : List Json)
  | obj (members : List (RawText × Json))
deriving Inhabited

namespace Json

/-- The members of an object, as a table. -/
def members? : Json → Option (Table RawText Json)
  | .obj members => some ⟨members⟩
  | _ => none

/-- The object with the members of a table. -/
def ofTable (t : Table RawText Json) : Json := .obj t.toList

/-- The text of a string value, as a string. -/
def string? : Json → Option String
  | .str s => some s.toString
  | _ => none

/-- Whether a value is the boolean `true`, and not some other value that counts as true. -/
def isTrue : Json → Bool
  | .bool b => b
  | _ => false

/-! ## Numbers -/

/-- Doubles are shown positionally from 0.0001 up to sixteen digits before the point, always with a
fraction, and otherwise with a signed exponent of at least two digits. -/
def displayLayout : Decimal.Layout where
  least := -4
  greatest := 15
  wholeMark := ".0"
  exponentMark := "e"
  exponentWidth := 2
  infinity := "inf"
  notANumber := "nan"

/-- Inside a JSON text only the names of the infinite values differ. -/
def textLayout : Decimal.Layout :=
  { displayLayout with infinity := "Infinity", notANumber := "NaN" }

/-- A double in a layout. -/
def floatText (l : Decimal.Layout) (x : Float) : String := l.double (.ofBits x.toBits)

/-! ## Values in messages -/

mutual

/-- A value as messages show it. -/
def display : Json → String
  | .null => "None"
  | .bool true => "True"
  | .bool false => "False"
  | .int n => toString n
  | .float x => floatText displayLayout x
  | .str s => s.quoted
  | .arr items => "[" ++ ", ".intercalate (displayAll items) ++ "]"
  | .obj members => "\x7b" ++ ", ".intercalate (displayMembers members) ++ "\x7d"

/-- The items of an array as messages show them. -/
def displayAll : List Json → List String
  | [] => []
  | j :: js => j.display :: displayAll js

/-- The members of an object as messages show them. -/
def displayMembers : List (RawText × Json) → List String
  | [] => []
  | (k, j) :: rest => (k.quoted ++ ": " ++ j.display) :: displayMembers rest

end

/-- The name of the kind of a value. -/
def kindName : Json → String
  | .null => "NoneType"
  | .bool _ => "bool"
  | .int _ => "int"
  | .float _ => "float"
  | .str _ => "str"
  | .arr _ => "list"
  | .obj _ => "dict"

end Json

end CommandShell
