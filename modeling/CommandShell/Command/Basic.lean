/-! # Commands

One command of a line: either an internal one, with a name and arguments, or a text that is handed
to the host as it stands. Any of the four parts may be absent, since commands are also built field
by field. -/

namespace CommandShell

/-- A command. -/
structure Command where
  /-- The name of an internal command. -/
  name : Option String
  /-- The values among its arguments. -/
  values : Option (List String)
  /-- The parameters among its arguments. -/
  parameters : Option (List String)
  /-- The text for the host. -/
  system : Option String
deriving Repr, DecidableEq, Inhabited

/-- Which of the argument lists of a command is present. -/
inductive ArgumentKind
  | value
  | parameter
deriving Repr, DecidableEq

/-- The name of a kind of argument. -/
def ArgumentKind.label : ArgumentKind → String
  | .value => "value"
  | .parameter => "parameter"

namespace Command

/-- A list, or nothing in the place of the empty list. -/
def listed (xs : List String) : Option (List String) := if xs.isEmpty then none else some xs

/-- An internal command. -/
def internal (name : String) (values parameters : List String) : Command :=
  ⟨some name, listed values, listed parameters, none⟩

/-- A command for the host. -/
def ofSystem (text : String) : Command := ⟨none, none, none, some text⟩

/-- Whether a command goes to the host. -/
def isSystem (c : Command) : Bool := c.system.isSome

/-- Whether a command has no part at all. -/
def isEmpty (c : Command) : Bool :=
  c.name.isNone && c.values.isNone && c.parameters.isNone && c.system.isNone

/-- The texts of all parts that are present: name, values, parameters, text for the host. -/
def fields (c : Command) : List String :=
  c.name.toList ++ c.values.getD [] ++ c.parameters.getD [] ++ c.system.toList

/-- The kinds of arguments that are present. -/
def kinds (c : Command) : List ArgumentKind :=
  (if c.values.isSome then [.value] else []) ++ (if c.parameters.isSome then [.parameter] else [])

/-- The text of a command: its fields with blanks between them. -/
def text (c : Command) : String := " ".intercalate c.fields

/-- Listing texts as an optional part, absent if there are none, loses none of them. -/
theorem getD_listed (xs : List String) : (listed xs).getD [] = xs := by
  cases xs <;> simp [listed]

/-- An internal command shows its name, then its values, then its parameters. -/
theorem fields_internal (n : String) (vs ps : List String) :
    (internal n vs ps).fields = n :: (vs ++ ps) := by
  simp [internal, fields, getD_listed]

end Command

end CommandShell
