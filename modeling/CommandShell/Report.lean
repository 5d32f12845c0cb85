import CommandShell.Json.Basic
import CommandShell.Text.Utf8

/-! # Validation reports

Data from outside is checked field by field against a model. What does not fit is collected in a
report, in the order of the model's fields, each finding with the value that was given. -/

namespace CommandShell

/-- What is wrong with a value. -/
inductive Problem
  | notString
  | notList
  | notBoolean
  | unreadableBoolean
  | surrogates
  | notObject (model : String)
  | frozen
deriving Repr, DecidableEq

/-- The wording of a problem. -/
def Problem.message : Problem → String
  | .notString => "Input should be a valid string"
  | .notList => "Input should be a valid list"
  | .notBoolean => "Input should be a valid boolean"
  | .unreadableBoolean => "Input should be a valid boolean, unable to interpret input"
  | .surrogates => "Input should be a valid string, unable to parse raw data as a unicode string"
  | .notObject model => "Input should be a valid dictionary or instance of " ++ model
  | .frozen => "Instance is frozen"

/-- The code of a problem. -/
def Problem.code : Problem → String
  | .notString => "string_type"
  | .notList => "list_type"
  | .notBoolean => "bool_type"
  | .unreadableBoolean => "bool_parsing"
  | .surrogates => "string_unicode"
  | .notObject _ => "model_type"
  | .frozen => "frozen_instance"

/-- One problem of a report. -/
structure Finding where
  /-- The field, if the problem is not with the whole input. -/
  field : Option String
  /-- What is wrong. -/
  problem : Problem
  /-- The value that was given. -/
  input : Json

/-- The problems of an input. -/
structure Report where
  /-- The name of the model. -/
  model : String
  /-- The problems, in the order of the model's fields. -/
  findings : List Finding

namespace Report

/-- The longest start of a text that takes at most `limit` bytes. -/
def headWithin (limit : Nat) : List Char → List Char
  | [] => []
  | c :: cs => if c.utf8Size ≤ limit then c :: headWithin (limit - c.utf8Size) cs else []

/-- The longest end of a text that takes at most `limit` bytes. -/
def tailWithin (limit : Nat) (cs : List Char) : List Char := (headWithin limit cs.reverse).reverse

/-- A text of more than 50 bytes is cut to its first 25 and its last 24, whole characters only. -/
def shortened (s : String) : String :=
  if s.utf8ByteSize ≤ 50 then s
  else String.ofList (headWithin 25 s.toList ++ ['.', '.', '.'] ++ tailWithin 24 s.toList)

/-- Where problems are explained. -/
def explanations : String := "https:" ++ "//errors.pydantic.dev/2.14/v/"

/-- The lines of a finding. -/
def findingText (f : Finding) : String :=
  let place := match f.field with
    | some field => field ++ "\n"
    | none => ""
  place ++ "  " ++ f.problem.message ++ " [type=" ++ f.problem.code ++ ", input_value=" ++
    shortened f.input.display ++ ", input_type=" ++ f.input.kindName ++ "]\n" ++
    "    For further information visit " ++ explanations ++ f.problem.code

/-- The text of a report. -/
def message (r : Report) : String :=
  let count := r.findings.length
  let noun := if count = 1 then " validation error for " else " validation errors for "
  toString count ++ noun ++ r.model ++ "\n" ++ "\n".intercalate (r.findings.map findingText)

end Report

/-! ## Checking fields -/

/-- A checked value, or what is wrong with the field that held it. -/
abbrev Checked (α : Type) := Except (List Finding) α

/-- The finding of a problem with a field. -/
def Checked.fail {α : Type} (field : String) (problem : Problem) (input : Json) : Checked α :=
  .error [⟨some field, problem, input⟩]

/-- What is wrong with a checked value. -/
def Checked.findings {α : Type} : Checked α → List Finding
  | .ok _ => []
  | .error fs => fs

/-- Check that a value is a string; an absent or null value is left open. -/
def checkString (field : String) : Option Json → Checked (Option RawText)
  | none => .ok none
  | some .null => .ok none
  | some (.str s) => .ok (some s)
  | some j => Checked.fail field .notString j

/-- Check that all items of a list are strings, the first of them with number `i`. -/
def checkItems (field : String) (i : Nat) : List Json → Checked (List RawText)
  | [] => .ok []
  | j :: js =>
    match checkItems field (i + 1) js, j with
    | .ok ss, .str s => .ok (s :: ss)
    | .error fs, .str _ => .error fs
    | rest, j => .error (⟨some (field ++ "." ++ toString i), .notString, j⟩ :: rest.findings)

/-- Check that a value is a list of strings; an absent or null value is left open. -/
def checkStrings (field : String) : Option Json → Checked (Option (List RawText))
  | none => .ok none
  | some .null => .ok none
  | some (.arr js) => (checkItems field 0 js).map some
  | some j => Checked.fail field .notList j

end CommandShell
