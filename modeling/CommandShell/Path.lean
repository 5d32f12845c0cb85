import CommandShell.Text.Blank
import CommandShell.Text.CodePoint

/-! # Paths

Paths as they are typed and joined, before any directory is looked at: a root and components. Empty
and `.` components are dropped when a path is read, `..` stays since the component before it may be
a link. -/

namespace CommandShell

/-- A path. -/
structure Path where
  /-- The slashes that an absolute path starts with: none, one, or exactly two. -/
  root : String
  /-- The components, none of them empty or `.`. -/
  parts : List RawText
deriving Repr, DecidableEq, Inhabited

namespace Path

/-- The components between the slashes of a string. -/
def components (s : String) : List String :=
  (Text.splitWhere (· == '/') s.toList).map String.ofList

/-- The components between the slashes of a text. -/
def pieces (t : RawText) : List RawText :=
  (Text.splitWhere (· == .char '/') t.points).map RawText.mk

/-- The root of a string: two slashes stay, more count as one. -/
def rootOf (s : String) : String :=
  match s.toList with
  | '/' :: '/' :: '/' :: _ => "/"
  | '/' :: '/' :: _ => "//"
  | '/' :: _ => "/"
  | _ => ""

/-- Read a path. -/
def ofText (t : RawText) : Path :=
  ⟨rootOf t.toString, (pieces t).filter fun c => c != "" && c != "."⟩

/-- Read a path that a string writes. -/
def ofString (s : String) : Path := ofText s

/-- The path from the root along some names. -/
def ofNames (names : List String) : Path := ⟨"/", names.map RawText.ofString⟩

/-- The text of a path; a path without root and components is the current directory. -/
def text (p : Path) : RawText :=
  if p.root = "" ∧ p.parts = [] then "."
  else RawText.ofString p.root ++ RawText.intercalate "/" p.parts

/-- The text of a path as a string. -/
def toString (p : Path) : String := p.text.toString

instance : ToString Path := ⟨toString⟩

/-- The components as strings. -/
def names (p : Path) : List String := p.parts.map RawText.toString

/-- Whether a path starts at the root. -/
def isAbsolute (p : Path) : Bool := p.root != ""

/-- The path from `p` on along `q`; an absolute `q` starts anew. -/
def join (p q : Path) : Path := if q.isAbsolute then q else ⟨p.root, p.parts ++ q.parts⟩

/-- The path from `p` on along the path that a string writes. -/
def child (p : Path) (s : String) : Path := p.join (ofString s)

/-- The path without its last component. -/
def parent (p : Path) : Path := ⟨p.root, p.parts.dropLast⟩

/-- The last component, or nothing. -/
def name (p : Path) : String := p.names.getLast?.getD ""

/-- The user of a leading `~user` and the components behind it. Without a user the text of the user
is empty. -/
def user? (p : Path) : Option (RawText × List RawText) :=
  if p.isAbsolute then none
  else match p.parts with
    | ⟨.char '~' :: user⟩ :: rest => some (⟨user⟩, rest)
    | _ => none

end Path

end CommandShell
