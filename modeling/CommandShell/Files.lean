import CommandShell.World

/-! # Actions on files

What a shell does with files, by path. A failed action names its path in the fault. It changes
nothing, but for a removal that fails half way. -/

namespace CommandShell.Files

/-- The name under which the file tree knows a text, which must be free of flaws and of the null
character. -/
def fileName (t : RawText) : Except Fault String :=
  match t.flaw? with
  | some flaw => .error (.unencodable flaw)
  | none =>
    let name := t.toString
    if name.toList.contains (Char.ofNat 0) then .error .nulInPath else .ok name

/-- Ask the file tree about a path. -/
def query {α : Type} (path : Path)
    (q : FileTree → WorkingDirectory → String → Except Errno α) : Shell α := do
  let name ← Shell.ofExcept id (fileName path.text)
  let w ← get
  Shell.ofExcept (fun e => .system e [path.text]) (q w.files w.cwd name)

/-- Change the file tree at a path. -/
def change (path : Path)
    (q : FileTree → WorkingDirectory → String → Except Errno FileTree) : Shell Unit := do
  let files ← query path q
  modify fun w => { w with files }

/-- Whether an error only says that nothing is there. -/
def meansAbsent : Errno → Bool
  | .noEntry => true
  | .notDirectory => true
  | .linkLoop => true
  | _ => false

/-- Ask the file tree about a path that may lead nowhere. Errors other than absence are faults. -/
def ask (path : Path) (q : FileTree → WorkingDirectory → String → Except Errno Bool) :
    Shell Bool := do
  match fileName path.text with
  | .error _ => pure false
  | .ok name =>
    let w ← get
    match q w.files w.cwd name with
    | .ok answer => pure answer
    | .error e => if meansAbsent e then pure false else throw (.system e [path.text])

/-- Whether a path leads to anything. -/
def isThere (path : Path) : Shell Bool := ask path fun t cwd p => (t.find cwd p).map fun _ => true

/-- Whether a path leads to a directory. -/
def isDirectory (path : Path) : Shell Bool :=
  ask path fun t cwd p => (t.find cwd p).map fun
    | .directory => true
    | _ => false

/-- Whether a path itself is a link. -/
def isLink (path : Path) : Shell Bool :=
  ask path fun t cwd p => (t.resolve cwd .kept p).map fun
    | .found _ (.link _) => true
    | _ => false

/-- Whether a path leads to anything, where no error at all counts. -/
def reaches (path : Path) : Shell Bool := do
  let w ← get
  match fileName path.text with
  | .error _ => pure false
  | .ok name =>
    match w.files.find w.cwd name with
    | .ok _ => pure true
    | .error _ => pure false

/-- The bytes of a content; the description of a module has none. -/
def contentBytes : Content → List UInt8
  | .bytes data => data
  | .code _ => []

/-- Where a file physically is, and what it holds. -/
def locateContent (path : Path) : Shell (Location × Content) := query path FileTree.read

/-- The bytes of a file. -/
def readBytes (path : Path) : Shell (List UInt8) := do
  let (_, content) ← locateContent path
  pure (contentBytes content)

/-- Make the content of a file these bytes. -/
def writeBytes (path : Path) (data : List UInt8) : Shell Unit :=
  change path fun t cwd p => t.write cwd p fun _ => .bytes data

/-- Put bytes at the end of a file. -/
def appendBytes (path : Path) (data : List UInt8) : Shell Unit :=
  change path fun t cwd p => t.write cwd p fun old =>
    .bytes ((old.map contentBytes).getD [] ++ data)

/-- Make a directory that may be there already, without those above it. -/
def makeDirectory (path : Path) : Shell Unit :=
  tryCatch (change path FileTree.makeDirectory) fun f =>
    match f with
    | .system .noEntry _ => throw f
    | .system _ _ => do if ← isDirectory path then pure () else throw f
    | _ => throw f

/-- Make a directory that may be there already, and those above it. -/
def makeDirectories (path : Path) : Shell Unit :=
  tryCatch (makeDirectory path) fun f =>
    match f with
    | .system .noEntry _ =>
      if _h : path.parts = [] then throw f
      else do
        makeDirectories path.parent
        makeDirectory path
    | _ => throw f
termination_by path.parts.length
decreasing_by
  simp only [Path.parent, List.length_dropLast]
  have := List.length_pos_iff.2 _h
  omega

/-- The paths of what is in a directory, ordered by name. Nothing is in a lost directory. -/
def list (path : Path) : Shell (List Path) := do
  let directory ← query path FileTree.directory
  let w ← get
  let names := (directory.location?.map w.files.names).getD []
  pure (names.map fun n => ⟨path.root, path.parts ++ [RawText.ofString n]⟩)

/-- Where what a path names is, which may be a link. -/
def locate (path : Path) : Shell Location :=
  query path fun t cwd p =>
    match t.resolve cwd .kept p with
    | .error e => .error e
    | .ok (.found place _) => .ok place
    | .ok _ => .error .noEntry

/-- Take away what is at a location and below it. A working directory in there is lost. -/
def takeAway (place : Location) : Shell Unit :=
  modify fun w => { w with files := w.files.prune place, cwd := w.cwd.without place }

/-- Remove what a path names, with everything below it. What is below goes first, so a path that
leads through it no longer leads to the end: the removal then fails and leaves nothing below. -/
def remove (path : Path) : Shell Unit := do
  let place ← locate path
  let w ← get
  (w.files.names place).forM fun n => takeAway (place ++ [n])
  takeAway (← locate path)

/-- Make a link. A failure names the target and the path. -/
def makeLink (path : Path) (target : RawText) : Shell Unit := do
  let targetName ← Shell.ofExcept id (fileName target)
  let name ← Shell.ofExcept id (fileName path.text)
  let w ← get
  let files ← Shell.ofExcept (fun e => .system e [target, path.text])
    (w.files.makeLink w.cwd name targetName)
  set { w with files }

/-- The text of a physical location. -/
def locationText (place : Location) : String := "/" ++ "/".intercalate place

/-- The working directory. A lost one has no name. -/
def currentDirectory : Shell String := do
  match (← get).cwd.location? with
  | some place => pure (locationText place)
  | none => throw (.system .noEntry [])

/-- Change the working directory. -/
def changeDirectory (path : Path) : Shell Unit := do
  let cwd ← query path FileTree.directory
  modify fun w => { w with cwd }

/-- Replace a leading `~` or `~user` of a path by a home directory. -/
def expandHome (path : Path) : Shell Path := do
  match path.user? with
  | none => pure path
  | some (user, rest) =>
    let w ← get
    let user ← Shell.ofExcept id (fileName user)
    let home ←
      if user = "" then pure w.home
      else match w.accounts.lookup user with
        | some home => pure home
        | none => throw .noHome
    pure ((Path.ofString home).join ⟨"", rest⟩)

end CommandShell.Files
