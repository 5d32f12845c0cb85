import CommandShell.Command.Basic
import CommandShell.Fault

/-! # Commands from fields

A command that is given field by field: every field is checked, and a command never changes once it
is made. -/

namespace CommandShell.Command

/-- The name of the model in reports. -/
def modelName : String := "ParsedCommand"

/-- Build a command from its fields. Fields that are absent or null stay open, unknown fields are
ignored. -/
def ofFields (fields : Table RawText Json) : Except Report Command :=
  let name := checkString "name" (fields.get? "name")
  let values := checkStrings "values" (fields.get? "values")
  let parameters := checkStrings "parameters" (fields.get? "parameters")
  let system := checkString "system_command" (fields.get? "system_command")
  match name, values, parameters, system with
  | .ok name, .ok values, .ok parameters, .ok system =>
    let text := RawText.toString
    .ok ⟨name.map text, values.map (·.map text), parameters.map (·.map text), system.map text⟩
  | name, values, parameters, system =>
    .error ⟨modelName,
      name.findings ++ values.findings ++ parameters.findings ++ system.findings⟩

/-- Whether a name is private: it starts with an underscore. -/
def isPrivateName (name : String) : Bool := name.toList.head? == some '_'

/-- The names of the fields. -/
def fieldNames : List String := ["name", "values", "parameters", "system_command"]

/-- The command with the given members in the place of its fields. -/
def withMembers (value : Json) : Except Fault Command :=
  match value.members? with
  | none => .error .wrongKind
  | some members =>
    match fieldNames.find? fun f => !members.contains (RawText.ofString f) with
    | some missing => .error (.noAttribute modelName missing)
    | none => (ofFields members).mapError fun _ => .wrongKind

/-- The private names that no single command takes a value for: what they name is only read, or
belongs to all commands together. -/
def readOnlyNames : List String :=
  ["__weakref__", "__fields_set__", "__class_vars__", "__private_attributes__", "__signature__"] ++
    ["complete", "core_schema", "custom_init", "decorators", "generic_metadata",
      "parent_namespace", "post_init", "root_model", "serializer", "validator", "fields",
      "setattr_handlers", "computed_fields"].map fun part => "__pydantic_" ++ part ++ "__"

/-- Assign to a field of a command. A command is frozen, and only private names take a value. They
are no fields, so that this does not change the command, but for three kinds of names: one stands
for all fields together, one for what kind of thing a command is, and some are only read. -/
def assign (c : Command) (name : String) (value : Json) : Except Fault Command :=
  if name = "__dict__" then withMembers value
  else if name = "__class__" then .error .wrongKind
  else if readOnlyNames.contains name then .error (.noAttribute modelName name)
  else if isPrivateName name then .ok c
  else .error (.rejected ⟨modelName, [⟨some name, .frozen, value⟩]⟩)

end CommandShell.Command
