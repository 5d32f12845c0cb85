import CommandShell.Script
import CommandShell.Table

/-! # Registries of commands

A registry finds commands by name or alias. Names are compared in their normal form, in which a
hyphen is an underscore. Several registries live side by side, and one can be redirected: what is
added to it then goes to its target, along a chain of redirections if there is one. -/

namespace CommandShell

/-- The normal form of a name: hyphens become underscores. -/
def normalName (name : String) : String :=
  String.ofList (name.toList.map fun c => if c = '-' then '_' else c)

/-- A registry: entries under their normal names, and the normal names that aliases lead to. -/
structure Registry where
  /-- The entries. -/
  commands : Table String Entry
  /-- The aliases. -/
  aliases : Table String String
deriving Inhabited

namespace Registry

/-- The registry without commands. -/
def empty : Registry := ⟨{}, {}⟩

/-- Add an entry. It replaces the entry of its name, and its aliases now lead to it. -/
def add (r : Registry) (e : Entry) : Registry :=
  let key := normalName e.name
  ⟨r.commands.put key e, e.aliases.foldl (fun t a => t.put (normalName a) key) r.aliases⟩

/-- Give the entry with a serial number one more alias, which leads nowhere yet. -/
def appendAlias (r : Registry) (serial : Nat) (name : String) : Registry :=
  { r with commands := r.commands.mapValues fun e =>
      if e.serial = serial then { e with aliases := e.aliases ++ [name] } else e }

/-- Remove the command of a name, and the aliases that its entry lists. -/
def unregister (r : Registry) (name : String) : Registry :=
  let key := normalName name
  match r.commands.get? key with
  | none => r
  | some e =>
    ⟨r.commands.remove key, e.aliases.foldl (fun t a => t.remove (normalName a)) r.aliases⟩

/-- Find a command by name, then by alias. The answer is an error when an alias leads to a name
without command; the error carries that name. -/
def find (r : Registry) (name : String) : Except String (Option Entry) :=
  let key := normalName name
  match r.commands.get? key with
  | some e => .ok (some e)
  | none =>
    match r.aliases.get? key with
    | none => .ok none
    | some target =>
      match r.commands.get? target with
      | some e => .ok (some e)
      | none => .error target

/-- How many commands there are. -/
def size (r : Registry) : Nat := r.commands.size

/-- The entries, ordered by name. -/
def all (r : Registry) : List Entry :=
  r.commands.values.mergeSort fun a b => decide (a.name ≤ b.name)

/-- Going through a registry visits its entries, ordered by name. -/
instance {m : Type → Type v} [Monad m] : ForIn m Registry Entry where
  forIn r init visit := forIn r.all init visit

/-- Names and aliases as typed, each with the description that is shown for it; a later entry
takes over the names that it shares with an earlier one. -/
def completions (r : Registry) : Table String String :=
  r.commands.values.foldl (fun t e =>
    (e.name :: e.aliases).foldl (fun t n => t.put n e.description) t) {}

end Registry

/-! ## Several registries -/

/-- Names one of several registries: the one that modules register with, or another. -/
inductive RegistryId
  | global
  | named (name : String)
deriving Repr, DecidableEq, Inhabited

/-- The registries, and which of them are redirected where. An entry may stand in several
registries; its serial number tells that it is one entry. -/
structure Registries where
  /-- The registries that hold anything. -/
  contents : Table RegistryId Registry
  /-- The redirections. -/
  redirects : Table RegistryId RegistryId
  /-- How many entries were registered. -/
  made : Nat
deriving Inhabited

namespace Registries

/-- One of the registries. -/
def get (rs : Registries) (i : RegistryId) : Registry := (rs.contents.get? i).getD .empty

/-- Replace one of the registries. -/
def set (rs : Registries) (i : RegistryId) (r : Registry) : Registries :=
  { rs with contents := rs.contents.put i r }

/-- Where a registry is redirected. -/
def redirect? (rs : Registries) (i : RegistryId) : Option RegistryId := rs.redirects.get? i

/-- Redirect a registry, or end its redirection. -/
def setRedirect (rs : Registries) (i : RegistryId) (target : Option RegistryId) : Registries :=
  match target with
  | none => { rs with redirects := rs.redirects.remove i }
  | some j => { rs with redirects := rs.redirects.put i j }

/-- The registry at the end of the chain of at most `links` redirections that starts at `i`. -/
def chainEnd (rs : Registries) : Nat → RegistryId → Option RegistryId
  | links, i =>
    match rs.redirect? i with
    | none => some i
    | some j =>
      match links with
      | 0 => none
      | links + 1 => rs.chainEnd links j

/-- The registry that receives what is added to `i`, unless the redirections go in a circle. A
chain without circle is no longer than there are redirections. -/
def target? (rs : Registries) (i : RegistryId) : Option RegistryId :=
  rs.chainEnd rs.redirects.size i

/-- Add an entry to a registry, at the end of its redirections. -/
def add? (rs : Registries) (i : RegistryId) (e : Entry) : Option Registries :=
  (rs.target? i).map fun j => rs.set j ((rs.get j).add e)

/-- A new entry with the next serial number. -/
def number (rs : Registries) (e : Entry) : Entry × Registries :=
  ({ e with serial := rs.made }, { rs with made := rs.made + 1 })

/-- Give an entry one more alias wherever it stands. -/
def appendAlias (rs : Registries) (e : Entry) (name : String) : Registries :=
  { rs with contents := rs.contents.mapValues fun r => r.appendAlias e.serial name }

/-! ## Entering and leaving a redirection -/

/-- A redirection that was entered: which registry it is on, and where that was redirected before. A
redirection to itself changes nothing and is not active. -/
structure Redirection where
  /-- The redirected registry. -/
  on : RegistryId
  /-- Where it was redirected before. -/
  previous : Option RegistryId
  /-- Whether anything was changed. -/
  active : Bool
deriving Repr, DecidableEq

/-- Redirect a registry for a while. -/
def enter (rs : Registries) (i target : RegistryId) : Redirection × Registries :=
  if target = i then (⟨i, none, false⟩, rs)
  else (⟨i, rs.redirect? i, true⟩, rs.setRedirect i (some target))

/-- End a redirection: the registry is redirected as it was before. -/
def leave (rs : Registries) (r : Redirection) : Registries :=
  if r.active then rs.setRedirect r.on r.previous else rs

end Registries

end CommandShell
