import CommandShell.Report

/-! # Settings

The seven settings of the shell, flags and texts. A settings value says which of them are given, and
`Setting.default` what holds for the others. Settings from outside are checked field by field. -/

namespace CommandShell

/-- A setting. -/
inductive Setting
  | commandsDir
  | probeCommand
  | historyFile
  | incognito
  | prompt
  | simple
  | logLevel
deriving Repr, DecidableEq

namespace Setting

/-- All settings, in the order in which they are checked and shown. -/
def all : List Setting :=
  [commandsDir, probeCommand, historyFile, incognito, prompt, simple, logLevel]

/-- All settings, in the order in which their defaults are written. -/
def writtenOrder : List Setting :=
  [commandsDir, historyFile, probeCommand, prompt, simple, incognito, logLevel]

/-- The key of a setting. -/
def key : Setting → String
  | commandsDir => "commands_dir"
  | probeCommand => "probe_command"
  | historyFile => "history_file"
  | incognito => "incognito"
  | prompt => "prompt"
  | simple => "simple"
  | logLevel => "log_level"

/-- The setting of a key. -/
def ofKey? (k : String) : Option Setting := all.find? fun s => s.key == k

/-- The list of all settings leaves none out. -/
theorem mem_all (s : Setting) : s ∈ all := by cases s <;> decide

/-- Every setting is found by its own key. -/
@[simp] theorem ofKey?_key (s : Setting) : ofKey? s.key = some s := by cases s <;> decide

/-- The value of a setting. -/
inductive Value
  | text (s : RawText)
  | flag (b : Bool)
deriving Repr, DecidableEq

/-- A value as JSON. -/
def Value.toJson : Value → Json
  | .text s => .str s
  | .flag b => .bool b

/-- Where the user's modules are looked for unless something else is set. -/
def defaultCommandsDir (home : String) : String := home ++ "/.cmdsh/commands"

/-- Where the history is kept unless something else is set. -/
def defaultHistoryFile (home : String) : String := home ++ "/.cmdsh/history"

/-- The program that is asked for commands unless another is set. -/
def defaultProbeCommand : String := "which"

/-- The prompt unless another is set. -/
def defaultPrompt : String := "$ "

/-- The least level that is logged unless another is set. -/
def defaultLogLevel : String := "WARNING"

/-- The value that holds where none is given. -/
def default (home : String) : Setting → Value
  | commandsDir => .text (defaultCommandsDir home)
  | probeCommand => .text defaultProbeCommand
  | historyFile => .text (defaultHistoryFile home)
  | incognito => .flag false
  | prompt => .text defaultPrompt
  | simple => .flag false
  | logLevel => .text defaultLogLevel

/-- The kind of the value of a setting, which may be absent. -/
def kindText (s : Setting) : String :=
  match s.default "" with
  | .text _ => "Optional[str]"
  | .flag _ => "Optional[bool]"

/-- The defaults as the members of an object, in the order in which they are written. -/
def defaultMembers (home : String) : List (RawText × Json) :=
  writtenOrder.map fun s => (s.key, (s.default home).toJson)

end Setting

/-- Which settings are given, and their values. -/
structure Settings where
  /-- The directory of the user's modules. -/
  commandsDir : Option RawText
  /-- The program that tells whether a command can be run. -/
  probeCommand : Option RawText
  /-- The file of the history. -/
  historyFile : Option RawText
  /-- Whether the history stays in memory. -/
  incognito : Option Bool
  /-- The prompt. -/
  prompt : Option RawText
  /-- Whether the simple prompt is used. -/
  simple : Option Bool
  /-- The least level that is logged. -/
  logLevel : Option RawText
deriving Repr, DecidableEq, Inhabited

namespace Settings

/-- No setting is given. -/
def empty : Settings := ⟨none, none, none, none, none, none, none⟩

/-- The value of a setting, if it is given. -/
def get? (c : Settings) : Setting → Option Setting.Value
  | .commandsDir => c.commandsDir.map .text
  | .probeCommand => c.probeCommand.map .text
  | .historyFile => c.historyFile.map .text
  | .incognito => c.incognito.map .flag
  | .prompt => c.prompt.map .text
  | .simple => c.simple.map .flag
  | .logLevel => c.logLevel.map .text

/-- A value as JSON, null where none is given. -/
def valueJson (v : Option Setting.Value) : Json := (v.map Setting.Value.toJson).getD .null

/-- All settings as the members of an object, null where none is given. -/
def members (c : Settings) : Table RawText Json :=
  ⟨Setting.all.map fun s => (s.key, valueJson (c.get? s))⟩

/-- The given settings as the members of an object. -/
def givenMembers (c : Settings) : List (RawText × Json) :=
  Setting.all.filterMap fun s => (c.get? s).map fun v => (s.key, v.toJson)

/-- The value of a setting that holds: the given one, or the default. -/
def effective (home : String) (c : Settings) (s : Setting) : Setting.Value :=
  (c.get? s).getD (s.default home)

/-- The settings that are given with another value than their default. -/
def customized (home : String) (c : Settings) : List Setting :=
  Setting.all.filter fun s => match c.get? s with
    | none => false
    | some v => decide (v ≠ s.default home)

/-- Under what names settings are stored: all of them at once, which of them were given, other
members, and private ones. -/
def slotNames : List String :=
  ["__dict__", "__pydantic_fields_set__", "__pydantic_extra__", "__pydantic_private__"]

/-- What settings tell under keys that are no settings: how they treat other members, where they
are described and how, all of them at once, what kind each has, what is stored beside them, and that
nothing is kept private or computed. -/
def fact? (c : Settings) (key : String) : Option Json :=
  if key = "model_config" then some (.obj [("extra", .str "ignore")])
  else if key = "__module__" then some (.str "cmdsh.config.config")
  else if key = "__doc__" then
    some (.str ("Configuration settings for cmdsh.\n\n" ++
      "    All settings are optional. Use DEFAULTS for default values.\n    "))
  else if key = "__dict__" then some (.ofTable c.members)
  else if key = "__annotations__" then
    some (.obj (Setting.all.map fun s => (s.key, .str s.kindText)))
  else if key = "__slots__" then some (.arr (slotNames.map fun n => .str (RawText.ofString n)))
  else if key = "__private_attributes__" ∨ key = "model_computed_fields" then some (.obj [])
  else none

/-! ## Checking -/

/-- The name of the model in reports. -/
def modelName : String := "Config"

/-- The texts that stand for false, in lower case. -/
def falseTexts : List String := ["0", "off", "f", "false", "n", "no"]

/-- The texts that stand for true, in lower case. -/
def trueTexts : List String := ["1", "on", "t", "true", "y", "yes"]

/-- The flag that a text stands for, in ASCII letters of either case. -/
def flagOfText? (s : String) : Option Bool :=
  let lower := String.ofList (s.toList.map Char.toLower)
  if trueTexts.contains lower then some true
  else if falseTexts.contains lower then some false
  else none

/-- The bound of the numbers of 64 bits with a sign. -/
def wholeBound : Int := Decimal.twoTo 63

/-- The whole number that a double is, if it lies between the least and the greatest number of 64
bits with a sign. Neither bound belongs to it: the least is left out, and the greatest is no
double. -/
def wholeNumber? : Decimal.Double → Option Int
  | .finite negative m q =>
    let step := Decimal.twoTo (-q)
    if m % step ≠ 0 then none
    else
      let n : Int := m / step * Decimal.twoTo q
      let signed := if negative then -n else n
      if -wholeBound < signed ∧ signed < wholeBound then some signed else none
  | .infinite _ => none
  | .notANumber => none

/-- The flag that a whole number stands for. -/
def flagOfInt (field : String) (input : Json) (n : Int) : Checked (Option Bool) :=
  if n = 0 then .ok (some false)
  else if n = 1 then .ok (some true)
  else Checked.fail field .unreadableBoolean input

/-- Check that a value stands for a flag; an absent or null value is left open. -/
def checkFlag (field : String) : Option Json → Checked (Option Bool)
  | none => .ok none
  | some .null => .ok none
  | some (.bool b) => .ok (some b)
  | some (.str s) =>
    if s.hasSurrogate then Checked.fail field .surrogates (.str s)
    else
      match flagOfText? s.toString with
      | some b => .ok (some b)
      | none => Checked.fail field .unreadableBoolean (.str s)
  | some (.int n) =>
    if -wholeBound ≤ n ∧ n < wholeBound then flagOfInt field (.int n) n
    else Checked.fail field .notBoolean (.int n)
  | some (.float x) =>
    match wholeNumber? (.ofBits x.toBits) with
    | some n => flagOfInt field (.float x) n
    | none => Checked.fail field .notBoolean (.float x)
  | some j => Checked.fail field .notBoolean j

/-- Check the members of an object. Members that are no settings are ignored. -/
def ofMembers (t : Table RawText Json) : Except Report Settings :=
  let text (s : Setting) := checkString s.key (t.get? s.key)
  let flag (s : Setting) := checkFlag s.key (t.get? s.key)
  match text .commandsDir, text .probeCommand, text .historyFile, flag .incognito, text .prompt,
      flag .simple, text .logLevel with
  | .ok commandsDir, .ok probeCommand, .ok historyFile, .ok incognito, .ok prompt, .ok simple,
      .ok logLevel =>
    .ok ⟨commandsDir, probeCommand, historyFile, incognito, prompt, simple, logLevel⟩
  | commandsDir, probeCommand, historyFile, incognito, prompt, simple, logLevel =>
    .error ⟨modelName, commandsDir.findings ++ probeCommand.findings ++ historyFile.findings ++
      incognito.findings ++ prompt.findings ++ simple.findings ++ logLevel.findings⟩

/-- Check a value: it has to be an object, and its members have to fit. -/
def ofJson (j : Json) : Except Report Settings :=
  match j.members? with
  | some t => ofMembers t
  | none => .error ⟨modelName, [⟨none, .notObject modelName, j⟩]⟩

end Settings

end CommandShell
