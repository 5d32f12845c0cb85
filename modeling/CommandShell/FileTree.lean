import CommandShell.Path
import CommandShell.Script
import CommandShell.Table

/-! # File trees

A tree of directories, files and symbolic links as a flat table from physical locations to nodes;
the root directory is always there. `walk` follows components from a directory and passes through
links, so that every operation works on the physical location that a path leads to. -/

namespace CommandShell

/-- A physical location: the names from the root on, none of them a link on the way. -/
abbrev Location := List String

/-- What a file holds: bytes, or the description of a module. -/
inductive Content
  | bytes (data : List UInt8)
  | code (module : Module)

/-- A node of a tree. -/
inductive Node
  | directory
  | file (content : Content)
  | link (target : String)

/-- Why an operation on files is refused. -/
inductive Errno
  | noEntry
  | denied
  | occupied
  | notDirectory
  | isDirectory
  | nameTooLong
  | linkLoop
deriving Repr, DecidableEq

namespace Errno

/-- The number of an error. -/
def number : Errno → Nat
  | noEntry => 2
  | denied => 13
  | occupied => 17
  | notDirectory => 20
  | isDirectory => 21
  | nameTooLong => 36
  | linkLoop => 40

/-- The wording of an error. -/
def text : Errno → String
  | noEntry => "No such file or directory"
  | denied => "Permission denied"
  | occupied => "File exists"
  | notDirectory => "Not a directory"
  | isDirectory => "Is a directory"
  | nameTooLong => "File name too long"
  | linkLoop => "Too many levels of symbolic links"

end Errno

/-- A working directory. It may have been removed: then its last `lost` names are gone from the
tree, although others may have taken their place. Nothing can be found or made in a lost directory,
but the way up from it still leads out. -/
structure WorkingDirectory where
  /-- Where the directory is, or was. -/
  place : Location
  /-- How many of its last names are gone. -/
  lost : Nat
deriving Repr, DecidableEq, Inhabited

namespace WorkingDirectory

/-- The working directory at a location of the tree. -/
def ofLocation (place : Location) : WorkingDirectory := ⟨place, 0⟩

/-- The location of a working directory that is not lost. -/
def location? (d : WorkingDirectory) : Option Location := if d.lost = 0 then some d.place else none

/-- The working directory after everything at a location and below it was removed. -/
def without (d : WorkingDirectory) (removed : Location) : WorkingDirectory :=
  if removed.isPrefixOf (d.place.take (d.place.length - d.lost)) then
    ⟨d.place, d.place.length + 1 - removed.length⟩
  else d

end WorkingDirectory

/-- Where a path leads: to a node, to a free name in a directory, or to a lost directory. -/
inductive Destination
  | found (place : Location) (node : Node)
  | free (directory : Location) (name : String)
  | lost (directory : WorkingDirectory)

/-- What is to become of the last name of a path: if it is a link it is `followed` or `kept`. A name
that is `written` is followed too, but it has to name a file, so no slash may stand behind it. -/
inductive LastName
  | followed
  | kept
  | written
deriving Repr, DecidableEq

/-- A tree of files. -/
structure FileTree where
  /-- The nodes below the root. -/
  nodes : Table Location Node
deriving Inhabited

namespace FileTree

/-- The node at a physical location. -/
def node? (t : FileTree) (place : Location) : Option Node :=
  if place = [] then some .directory else t.nodes.get? place

/-- The most bytes of a name. -/
def maxName : Nat := 255

/-- How many links a path may pass through. -/
def maxLinks : Nat := 40

/-- The number of bytes from which on a path is too long. -/
def pathLimit : Nat := 4096

/-- Whether nothing but slashes stands behind a name. -/
def isSlashed (rest : List String) : Bool := rest != [] && rest.all (· == "")

/-- Follow components from a directory through at most `links` links. -/
def walk (t : FileTree) (last : LastName) (links : Nat) (place : Location) :
    List String → Except Errno Destination
  | [] => .ok (.found place .directory)
  | c :: rest =>
    if c = "" ∨ c = "." then walk t last links place rest
    else if c = ".." then walk t last links place.dropLast rest
    else if last = .written ∧ isSlashed rest then .error .isDirectory
    else if maxName < c.utf8ByteSize then .error .nameTooLong
    else match t.node? (place ++ [c]) with
      | none => if rest = [] then .ok (.free place c) else .error .noEntry
      | some .directory => walk t last links (place ++ [c]) rest
      | some (.file content) =>
        if rest = [] then .ok (.found (place ++ [c]) (.file content)) else .error .notDirectory
      | some (.link target) =>
        if rest = [] ∧ last = .kept then .ok (.found (place ++ [c]) (.link target))
        else match links with
          | 0 => .error .linkLoop
          | links + 1 =>
            -- A relative target is followed from the directory of the link.
            let start := if (Path.rootOf target) = "" then place else []
            walk t last links start (Path.components target ++ rest)
termination_by cs => (links, cs.length)

/-- Follow components from a directory that may be lost: then they have to lead up first. -/
def walkOut (t : FileTree) (last : LastName) (d : WorkingDirectory) :
    List String → Except Errno Destination
  | [] => .ok (if d.lost = 0 then .found d.place .directory else .lost d)
  | c :: rest =>
    if d.lost = 0 then t.walk last maxLinks d.place (c :: rest)
    else if c = "" ∨ c = "." then walkOut t last d rest
    else if c = ".." then walkOut t last ⟨d.place.dropLast, d.lost - 1⟩ rest
    else .error .noEntry

/-- Follow a path from a working directory. -/
def resolve (t : FileTree) (cwd : WorkingDirectory) (last : LastName) (path : String) :
    Except Errno Destination :=
  if path = "" then .error .noEntry
  else if pathLimit ≤ path.utf8ByteSize then .error .nameTooLong
  else if Path.rootOf path = "" then t.walkOut last cwd (Path.components path)
  else t.walk last maxLinks [] (Path.components path)

/-- The node that a path leads to. -/
def find (t : FileTree) (cwd : WorkingDirectory) (path : String) : Except Errno Node :=
  match t.resolve cwd .followed path with
  | .error e => .error e
  | .ok (.found _ node) => .ok node
  | .ok (.free _ _) => .error .noEntry
  | .ok (.lost _) => .ok .directory

/-! ## Looking -/

/-- The names in the directory at a location, ascending. -/
def names (t : FileTree) (place : Location) : List String :=
  let inside := t.nodes.keys.filterMap fun l =>
    if l.dropLast = place then l.getLast? else none
  inside.mergeSort fun a b => decide (a ≤ b)

/-- The place and the content of the file that a path leads to. -/
def read (t : FileTree) (cwd : WorkingDirectory) (path : String) :
    Except Errno (Location × Content) :=
  match t.resolve cwd .followed path with
  | .error e => .error e
  | .ok (.found place (.file content)) => .ok (place, content)
  | .ok (.free _ _) => .error .noEntry
  | .ok _ => .error .isDirectory

/-- The directory that a path leads to. -/
def directory (t : FileTree) (cwd : WorkingDirectory) (path : String) :
    Except Errno WorkingDirectory :=
  match t.resolve cwd .followed path with
  | .error e => .error e
  | .ok (.found place .directory) => .ok (.ofLocation place)
  | .ok (.lost d) => .ok d
  | .ok (.free _ _) => .error .noEntry
  | .ok _ => .error .notDirectory

/-! ## Changing -/

/-- Put a node at a location. -/
def put (t : FileTree) (place : Location) (node : Node) : FileTree := ⟨t.nodes.put place node⟩

/-- Remove the node at a location and everything below it. -/
def prune (t : FileTree) (place : Location) : FileTree :=
  ⟨t.nodes.filter fun l _ => !place.isPrefixOf l⟩

/-- Write the file that a path leads to, or make it. -/
def write (t : FileTree) (cwd : WorkingDirectory) (path : String)
    (update : Option Content → Content) : Except Errno FileTree :=
  match t.resolve cwd .written path with
  | .error e => .error e
  | .ok (.found place (.file content)) => .ok (t.put place (.file (update (some content))))
  | .ok (.free place name) => .ok (t.put (place ++ [name]) (.file (update none)))
  | .ok _ => .error .isDirectory

/-- Make a node at the free name that a path leads to. -/
def makeNode (t : FileTree) (cwd : WorkingDirectory) (path : String) (node : Node) :
    Except Errno FileTree :=
  match t.resolve cwd .kept path with
  | .error e => .error e
  | .ok (.free place name) => .ok (t.put (place ++ [name]) node)
  | .ok _ => .error .occupied

/-- Make the directory that a path names. -/
def makeDirectory (t : FileTree) (cwd : WorkingDirectory) (path : String) :
    Except Errno FileTree :=
  t.makeNode cwd path .directory

/-- Make a link at the free name that a path leads to. -/
def makeLink (t : FileTree) (cwd : WorkingDirectory) (path target : String) :
    Except Errno FileTree :=
  if target = "" then .error .noEntry
  else if pathLimit ≤ target.utf8ByteSize then .error .nameTooLong
  else t.makeNode cwd path (.link target)

/-- Make all missing directories down to a location. -/
def makeLocation (t : FileTree) (place : Location) : FileTree :=
  (List.range place.length).foldl (fun t n =>
    let l := place.take (n + 1)
    match t.node? l with
    | some _ => t
    | none => t.put l .directory) t

end FileTree

end CommandShell
