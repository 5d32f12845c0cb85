import CommandShell.Proofs.Files.Directories
import CommandShell.Proofs.Registry.Aliases
import CommandShell.Proofs.Registry.Redirects
import CommandShell.Proofs.Table

/-! # Ordinary handlers and modules

A handler is **ordinary** if whatever it raises stays within the shell, and so do the handlers that it
registers; a module is ordinary if the same holds of its import. A world is ordinary if every registered
handler and every module in its files is. Registering ordinary handlers and changing files keeps it so:
no change writes a module. -/

namespace CommandShell

/-- Whether an action raises a fault. -/
def Action.fails : Action → Bool
  | .raise _ => true
  | .unknown _ => true
  | _ => false

/-- Whether an action is the last that a handler does. -/
def Action.ends : Action → Bool
  | .finish _ => true
  | action => action.fails

mutual

/-- Whether nothing that an action raises or registers escapes. -/
def Action.isOrdinary : Action → Bool
  | .raise r => (Fault.raised r).isOrdinary
  | .define _ body => Action.areOrdinary body
  | _ => true

/-- Whether nothing that the actions of a handler raise or register escapes. -/
def Action.areOrdinary : List Action → Bool
  | [] => true
  | action :: rest => action.isOrdinary && (action.ends || areOrdinary rest)

end

/-- Whether nothing that the actions of a module raise or register escapes. A module does not return. -/
def Action.importOrdinary : List Action → Bool
  | [] => true
  | action :: rest => action.isOrdinary && (action.fails || importOrdinary rest)

/-- Whether nothing that a handler raises or registers escapes. -/
def Handler.isOrdinary : Handler → Bool
  | .script body => Action.areOrdinary body
  | .builtin _ _ => true

/-- Whether nothing that a module raises or registers escapes. -/
def Module.isOrdinary : Module → Bool
  | .unreadable => true
  | .script body => Action.importOrdinary body
  | .builtin _ => true

/-! ## Registries -/

/-- Every registered handler is ordinary. -/
def Registries.Ordinary (rs : Registries) : Prop :=
  ∀ i key e, (rs.get i).commands.get? key = some e → e.handler.isOrdinary = true

namespace Registries.Ordinary

variable {rs rs' : Registries}

/-- Registries that hold the same are ordinary together. -/
theorem of_get (h : rs.Ordinary) (hget : ∀ i, rs'.get i = rs.get i) : rs'.Ordinary := by
  intro i key e he
  rw [hget] at he
  exact h i key e he

/-- It is enough that all commands are ordinary that stand in some registry. -/
theorem of_contents (h : ∀ r ∈ rs.contents.toList, ∀ c ∈ r.2.commands.toList,
    c.2.handler.isOrdinary = true) : rs.Ordinary := by
  intro i key e he
  unfold get at he
  cases hr : rs.contents.get? i with
  | none =>
    rw [hr] at he
    exact nomatch he
  | some r =>
    rw [hr] at he
    exact h (i, r) (Table.mem_of_get? hr) (key, e) (Table.mem_of_get? he)

/-- A redirection changes no handler. -/
theorem enter (h : rs.Ordinary) (i target : RegistryId) : (rs.enter i target).2.Ordinary :=
  h.of_get (get_enter rs i target)

/-- Ending a redirection changes no handler. -/
theorem leave (h : rs.Ordinary) (r : Redirection) : (rs.leave r).Ordinary :=
  h.of_get (get_leave rs r)

/-- Numbering an entry changes no handler. -/
theorem number (h : rs.Ordinary) (e : Entry) : (rs.number e).2.Ordinary := h.of_get fun _ => rfl

/-- A registry may be replaced by one whose commands are ordinary. -/
theorem set (h : rs.Ordinary) (i : RegistryId) {r : Registry}
    (hr : ∀ key e, r.commands.get? key = some e → e.handler.isOrdinary = true) :
    (rs.set i r).Ordinary := by
  intro j key e he
  rw [get_set] at he
  split at he
  · exact hr key e he
  · exact h j key e he

/-- An entry whose handler raises ordinary faults only keeps the registries ordinary. -/
theorem add? (h : rs.Ordinary) {i : RegistryId} {e : Entry} (he : e.handler.isOrdinary = true)
    (hadd : rs.add? i e = some rs') : rs'.Ordinary := by
  obtain ⟨j, -, rfl⟩ := Option.map_eq_some_iff.mp hadd
  refine h.set j fun key e' hkey => ?_
  rw [Registry.commands_add] at hkey
  split at hkey
  · cases hkey
    exact he
  · exact h j key e' hkey

/-- Removing a command keeps the registries ordinary. -/
theorem unregister (h : rs.Ordinary) (i : RegistryId) (name : String) :
    (rs.set i ((rs.get i).unregister name)).Ordinary := by
  refine h.set i fun key e hkey => ?_
  rw [Registry.commands_unregister] at hkey
  split at hkey
  · cases hkey
  · exact h i key e hkey

/-- What a look-up gives stands in the registry. -/
theorem find (h : rs.Ordinary) {i : RegistryId} {name : String} {e : Entry}
    (hfind : (rs.get i).find name = .ok (some e)) : e.handler.isOrdinary = true := by
  unfold Registry.find at hfind
  cases hcommand : (rs.get i).commands.get? (normalName name) with
  | some e' =>
    simp only [hcommand] at hfind
    cases hfind
    exact h i _ e hcommand
  | none =>
    cases halias : (rs.get i).aliases.get? (normalName name) with
    | none =>
      simp only [hcommand, halias] at hfind
      cases hfind
    | some target =>
      cases htarget : (rs.get i).commands.get? target with
      | none =>
        simp only [hcommand, halias, htarget] at hfind
        cases hfind
      | some e' =>
        simp only [hcommand, halias, htarget] at hfind
        cases hfind
        exact h i _ e htarget

end Registries.Ordinary

/-! ## Files -/

/-- Every module in a tree of files is ordinary. -/
def FileTree.Ordinary (t : FileTree) : Prop :=
  ∀ place m, t.nodes.get? place = some (.file (.code m)) → m.isOrdinary = true

namespace FileTree.Ordinary

variable {t t' : FileTree} {cwd : WorkingDirectory} {path : String}

/-- What is put into a tree is no module. -/
theorem put (h : t.Ordinary) (place : Location) {node : Node} (hnode : ∀ m, node ≠ .file (.code m)) :
    (t.put place node).Ordinary := by
  intro l m hl
  rw [FileTree.put, Table.get?_put] at hl
  split at hl
  · exact absurd (Option.some.inj hl) (hnode m)
  · exact h l m hl

/-- A tree stays ordinary when a file is written that holds no code. -/
theorem write (h : t.Ordinary) {update : Option Content → Content}
    (hupdate : ∀ old m, update old ≠ .code m) (hwrite : t.write cwd path update = .ok t') :
    t'.Ordinary := by
  have hfile (old : Option Content) (m : Module) : Node.file (update old) ≠ .file (.code m) :=
    fun heq => hupdate old m (Node.file.inj heq)
  unfold FileTree.write at hwrite
  split at hwrite
  · exact nomatch hwrite
  · cases hwrite
    exact h.put _ (hfile _)
  · cases hwrite
    exact h.put _ (hfile _)
  · exact nomatch hwrite

/-- A tree stays ordinary when a directory is made. -/
theorem makeDirectory (h : t.Ordinary) (hmake : t.makeDirectory cwd path = .ok t') :
    t'.Ordinary := by
  unfold FileTree.makeDirectory FileTree.makeNode at hmake
  split at hmake
  · exact nomatch hmake
  · cases hmake
    exact h.put _ fun _ heq => nomatch heq
  · exact nomatch hmake

/-- A module that is read stands in the tree. -/
theorem read (h : t.Ordinary) {place : Location} {m : Module}
    (hread : t.read cwd path = .ok (place, .code m)) : m.isOrdinary = true := by
  obtain ⟨e, he⟩ | ⟨_, _, hleads, _⟩ := resolve_start (read_eq_ok_iff.mp hread)
  · exact nomatch he
  obtain ⟨hplace, hnode⟩ := hleads.node?_file rfl
  rw [node?, if_neg hplace] at hnode
  exact h place m hnode

end FileTree.Ordinary

/-- Every registered handler and every module in the files is ordinary. -/
structure World.Ordinary (w : World) : Prop where
  /-- The handlers are. -/
  registries : w.registries.Ordinary
  /-- The modules are. -/
  files : w.files.Ordinary

end CommandShell
