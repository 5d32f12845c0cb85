import CommandShell.Files

/-! # Loading modules

A module is a directory with an initial file; importing it registers commands. The loader finds
modules in its search directories, the earlier directory winning, and imports each of them at most
once, whether the import succeeds or fails. What a module registers goes to the registry of the
loader, since the registry that modules know is redirected while they are imported. -/

namespace CommandShell

/-- The name of the initial file of a module. -/
def initialFile : String := "__init__.py"

/-- The registry that modules register with. -/
def moduleRegistry : RegistryId := .global

namespace Shell

/-- Add an entry to a registry, through its redirections. -/
def add (i : RegistryId) (e : Entry) : Shell Unit := do
  match (← get).registries.add? i e with
  | some rs => modify fun w => { w with registries := rs }
  | none => throw .nesting

/-- Add a new entry to a registry, through its redirections. -/
def register (i : RegistryId) (e : Entry) : Shell Unit := do
  let (e, registries) := (← get).registries.number e
  modify fun w => { w with registries }
  add i e

/-- Remove a command from a registry. -/
def unregister (i : RegistryId) (name : String) : Shell Unit :=
  modify fun w => { w with registries := w.registries.set i ((w.registries.get i).unregister name) }

/-- Find a command in a registry. -/
def lookup (i : RegistryId) (name : String) : Shell (Option Entry) := do
  ofExcept .danglingAlias (((← get).registries.get i).find name)

/-- Run an action while a registry is redirected. -/
def redirected {α : Type} (i target : RegistryId) (action : Shell α) : Shell α := do
  let (redirection, registries) := (← get).registries.enter i target
  modify fun w => { w with registries }
  followedBy action (modify fun w => { w with registries := w.registries.leave redirection })

end Shell

/-! ## Importing -/

/-- Run the actions of a module that is being imported. -/
def Module.runBody : List Action → Shell Unit
  | [] => pure ()
  | .raise r :: _ => throw (.raised r)
  | .unknown name :: _ => throw (.unknownCommand name)
  | .define d body :: rest => do
    Shell.register moduleRegistry (d.entry (.script body))
    runBody rest
  | .undefine name :: rest => do
    Shell.unregister moduleRegistry name
    runBody rest
  | _ :: rest => runBody rest

/-- The fault of a module that cannot be read. -/
def Module.unreadableFault : Fault :=
  .raised ⟨"SyntaxError", .grammar, some "invalid syntax (__init__.py, line 1)"⟩

/-- Import a module from the directory of the given name. -/
def Module.run (directory : String) : Module → Shell Unit
  | .unreadable => throw unreadableFault
  | .script body => do
    Shell.emit (.imported directory)
    runBody body
  | .builtin b => do
    let origin := (← get).imports
    modify fun w => { w with imports := origin + 1 }
    Shell.register moduleRegistry (b.declaration.entry (.builtin b origin))

/-- What an import reports about a fault. -/
def importMessage (f : Fault) : String :=
  match f with
  | .raised r =>
    match r.family with
    | .grammar => "Syntax error: " ++ f.message
    | .dependency => "Import error: " ++ f.message
    | _ => "Error: " ++ f.message
  | _ => "Error: " ++ f.message

/-- The absolute form of a path; in a lost directory a path stays as it is. -/
def absolutePath (path : Path) : Shell Path := do
  match (← get).cwd.location? with
  | some place => pure ((Path.ofNames place).join path)
  | none => pure path

/-- Execute the initial file of a module. A module knows itself by the name of the directory that its
file physically lies in. -/
def executeFile (file : Path) : Shell Unit := do
  let (place, content) ← Files.locateContent (← absolutePath file)
  match content with
  | .code m => m.run (place.dropLast.getLast?.getD "")
  | .bytes _ => pure ()

/-- Import the module with the given initial file. The answer is nothing on success and a report on
failure; what is not ordinary is not caught. -/
def importFile (file : Path) : Shell (Option String) :=
  Shell.recover Fault.isOrdinary (do
    executeFile file
    pure none) fun f => pure (some (importMessage f))

/-! ## Finding -/

/-- Whether a directory of this name may be a module: hidden and private directories are none. -/
def isModuleName (name : String) : Bool :=
  !(Text.startsWith name "." || Text.startsWith name "_")

/-- The initial file of the module at a path, if there is one. -/
def initialFileAt (path : Path) : Shell (Option Path) := do
  if !(← Files.isDirectory path) then pure none
  else if !isModuleName path.name then pure none
  else
    let file := path.child initialFile
    if ← Files.isThere file then pure (some file)
    else
      Shell.log .debug .loader ("Skipping " ++ path.name ++ ": no " ++ initialFile)
      pure none

/-- The initial files of the modules among some paths, in order. -/
def initialFiles : List Path → Shell (List Path)
  | [] => pure []
  | path :: rest => do
    let found ← initialFileAt path
    let more ← initialFiles rest
    pure (found.toList ++ more)

/-- The initial files of the modules in a directory, ordered by name. -/
def discover (directory : Path) : Shell (List Path) := do
  if !(← Files.isThere directory) then pure []
  else if !(← Files.isDirectory directory) then
    Shell.log .warning .loader ("Commands path is not a directory: " ++ directory.toString)
    pure []
  else initialFiles (← Files.list directory)

namespace Loader

/-- The loader of a list of directories. -/
def ofDirectories (directories : List Path) (registry : RegistryId) : Loader :=
  ⟨directories, registry, []⟩

/-- The modules that can be found, by normal name; the first of a name counts. -/
def index : Shell (Table String Path) := do
  let files ← (← get).loader.directories.mapM discover
  pure (files.flatten.foldl (fun t f => t.putNew (normalName f.parent.name) f) {})

/-- The names of the modules that can be found, ascending. -/
def available : Shell (List String) := do
  pure ((← index).keys.mergeSort fun a b => decide (a ≤ b))

/-- Whether a module was imported, or failed. -/
def isLoaded (name : String) : Shell Bool := do
  pure ((← get).loader.attempted.contains (normalName name))

/-- Import a module into the registry of the loader and mark it. Whether it succeeded. -/
def importModule (key : String) (file : Path) : Shell Bool := do
  let failure ← Shell.redirected moduleRegistry (← get).loader.registry (importFile file)
  -- What escapes from the import does not come here: the module may be tried again.
  modify fun w => { w with loader := { w.loader with attempted := w.loader.attempted ++ [key] } }
  match failure with
  | some message =>
    Shell.log .warning .loader
      ("Failed to load command '" ++ file.parent.name ++ "': " ++ message)
    pure false
  | none =>
    Shell.log .debug .loader ("Loaded command module " ++ file.toString)
    pure true

/-- Import the module of a name, unless that was tried before or there is none. -/
def load (name : String) : Shell Unit := do
  let key := normalName name
  if (← get).loader.attempted.contains key then pure ()
  else
    match (← index).get? key with
    | none => Shell.log .debug .loader ("No command module for " ++ Text.quoted name)
    | some file =>
      let _ ← importModule key file

/-- Import those of the found modules that were not tried before, in order. How many succeeded. -/
def loadFound (verbose : Bool) : List (String × Path) → Shell Nat
  | [] => pure 0
  | (key, file) :: rest => do
    if (← get).loader.attempted.contains key then loadFound verbose rest
    else
      let succeeded ← importModule key file
      if succeeded && verbose then Shell.log .info .loader ("Loaded command: " ++ key)
      let more ← loadFound verbose rest
      pure (if succeeded then more + 1 else more)

/-- Import every module that can be found. How many succeeded. -/
def loadAll (verbose : Bool) : Shell Nat := do
  loadFound verbose (← index).toList

end Loader

end CommandShell
