import CommandShell.Files
import CommandShell.Json.Encode
import CommandShell.Settings.Basic

/-! # Settings on file

The settings are kept in one JSON file under the home directory. A manager reads the file once and
keeps what it read; several managers may work on the file. The file may hold members that are no
settings: they keep their values and their order. -/

namespace CommandShell

/-- Names one of the managers of the settings. -/
abbrev ManagerId := Nat

namespace SettingsFile

/-- The directory of the file. -/
def directory : Shell Path := do
  pure ((Path.ofString (← get).home).child ".cmdsh")

/-- The path of the file. -/
def path : Shell Path := do
  pure ((← directory).child "config.json")

/-- A text whose line ends are line feeds only. -/
def unixLines : List Char → List Char
  | [] => []
  | '\r' :: '\n' :: cs => '\n' :: unixLines cs
  | '\r' :: cs => '\n' :: unixLines cs
  | c :: cs => c :: unixLines cs

/-- What the bytes of the file say: a value, or a mistake with its position and the text. -/
def parse (data : List UInt8) : Except Fault (Except String Json) :=
  match Utf8.decode data with
  | .error f => .error (.undecodable f)
  | .ok cs =>
    let text := unixLines cs
    match Json.decodeChars text with
    | .ok j => .ok (.ok j)
    | .error (.malformed m position) => .ok (.error (m.located text position))
    | .error (.oversized digits) => .error (.longNumber digits)
    | .error .nested => .error .nesting

/-- A missing file has no bytes; all other faults stay. -/
def noneIfMissing : Fault → Shell (Option (List UInt8))
  | .system .noEntry _ => pure none
  | f => throw f

/-- The value in the file; a missing or malformed file counts as an empty object. -/
def readRaw : Shell Json := do
  let p ← path
  let data? ← tryCatch (some <$> Files.readBytes p) noneIfMissing
  match data? with
  | none => pure (.obj [])
  | some data =>
    match ← Shell.ofExcept id (parse data) with
    | .ok j => pure j
    | .error mistake =>
      Shell.log .warning .config ("Ignoring malformed " ++ p.toString ++ ": " ++ mistake)
      pure (.obj [])

/-- Make a value the content of the file. -/
def writeRaw (j : Json) : Shell Path := do
  Files.makeDirectories (← directory)
  let p ← path
  Files.writeBytes p (Utf8.encode (j.encode ++ "\n").toList)
  pure p

/-- Make the defaults the content of the file. -/
def writeDefaults : Shell Path := do
  writeRaw (.obj (("_comment", .str "cmdsh configuration file") ::
    Setting.defaultMembers (← get).home))

/-- The settings in the file. A missing file holds none, and is made from the defaults if `create`
says so; a file that does not fit is reported and holds none. -/
def load (create : Bool) : Shell Settings := do
  let p ← path
  if ← Files.isThere p then
    match Settings.ofJson (← readRaw) with
    | .ok c => pure c
    | .error r =>
      Shell.log .warning .config ("Invalid config file (" ++ r.message ++ "), using defaults")
      pure .empty
  else
    if create then
      let _ ← writeDefaults
    pure .empty

end SettingsFile

namespace Manager

/-- The settings that a manager has in memory, read from the file at first use. -/
def config (m : ManagerId) : Shell Settings := do
  match (← get).settings.get? m with
  | some c => pure c
  | none =>
    let c ← SettingsFile.load true
    modify fun w => { w with settings := w.settings.put m c }
    pure c

/-- The setting of a key. -/
def setting (key : String) : Shell Setting :=
  match Setting.ofKey? key with
  | some s => pure s
  | none => throw (.unknownSetting key)

/-- Write the given settings into the file. What the file holds beside the settings is kept. -/
def writeGiven (m : ManagerId) : Shell Path := do
  let j ← SettingsFile.readRaw
  match j.members? with
  | none => throw (.noAttribute j.kindName "update")
  | some t => do
    let c ← config m
    let merged := c.givenMembers.foldl (fun t (k, v) => t.put k v) t
    SettingsFile.writeRaw (Json.ofTable merged)

/-- Write the given settings into the file, beside what it holds already. Settings that are handed
over are first taken into memory. -/
def save (m : ManagerId) (given : Option Settings) : Shell Path := do
  match given with
  | some c => modify fun w => { w with settings := w.settings.put m c }
  | none => pure ()
  writeGiven m

/-- Give a setting a value, checked together with those in the file. -/
def set (m : ManagerId) (key : String) (value : Json) : Shell Unit := do
  let _ ← setting key
  let c ← SettingsFile.load true
  let c ← Shell.ofExcept .rejected (Settings.ofMembers (c.members.put key value))
  let _ ← save m (some c)

/-- Take a setting out of the file. -/
def unset (m : ManagerId) (key : String) : Shell Unit := do
  let _ ← setting key
  let j ← SettingsFile.readRaw
  match j with
  | .arr _ => throw .surplusArgument
  | _ =>
    match j.members? with
    | none => throw (.noAttribute j.kindName "pop")
    | some t =>
      let _ ← SettingsFile.writeRaw (.ofTable (t.remove key))
      modify fun w => { w with settings := w.settings.remove m }

/-- The value of a setting, as given or by default. -/
def get (m : ManagerId) (s : Setting) : Shell Setting.Value := do
  let c ← config m
  pure (c.effective (← MonadState.get).home s)

/-- The value of a key. A key that is no setting tells something about settings, or else has the
value that is handed over. -/
def getKey (m : ManagerId) (key : String) (otherwise : Json) : Shell Json := do
  let c ← config m
  match Setting.ofKey? key with
  | some s => pure (c.effective (← MonadState.get).home s).toJson
  | none => pure ((c.fact? key).getD otherwise)

/-- The settings that have another value than their default. -/
def customized (m : ManagerId) : Shell (List Setting) := do
  let c ← config m
  pure (c.customized (← MonadState.get).home)

end Manager

end CommandShell
