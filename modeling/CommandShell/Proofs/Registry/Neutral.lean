import CommandShell.Fault
import CommandShell.Proofs.Registry.Docile

/-! # Neutral commands

A handler is **neutral** if it neither registers nor removes a command. Which of the commands that come
with the shell may be called is a parameter `B`. A module is **additive** if it only registers neutral
commands, and raises nothing but what the loader reports; `Module.names` are the names and aliases that
it registers before it raises anything. A registry of neutral commands without dangling aliases stays
such a registry when neutral commands are added (`Registry.Neutral.add`). -/

namespace CommandShell

variable {B : Builtin → Prop}

/-! ## Handlers -/

/-- No action of a handler registers or removes a command, up to the one that ends the handler. -/
def Action.keepCommands : List Action → Bool
  | [] => true
  | .unknown _ :: _ => true
  | .raise _ :: _ => true
  | .finish _ :: _ => true
  | .define _ _ :: _ => false
  | .undefine _ :: _ => false
  | _ :: rest => keepCommands rest

/-- A handler with or without the context of the shell is neutral. Without the context it cannot reach
the registry. -/
def Handler.Neutral (B : Builtin → Prop) (hasContext : Bool) : Handler → Prop
  | .script body => hasContext = true → Action.keepCommands body = true
  | .builtin b _ => B b

/-- An entry has a neutral handler. -/
def Entry.Neutral (B : Builtin → Prop) (e : Entry) : Prop := e.handler.Neutral B e.passContext

/-! ## Modules -/

/-- The normal names under which a declaration is found. -/
def Declaration.names (d : Declaration) : List String := (d.name :: d.aliases).map normalName

/-- A body removes no command, registers only neutral handlers, and raises only what the loader
reports. -/
def Action.addsOnly : List Action → Bool
  | [] => true
  | .raise r :: _ => (Fault.raised r).isOrdinary
  | .unknown _ :: _ => true
  | .undefine _ :: _ => false
  | .define d body :: rest => (!d.passContext || keepCommands body) && addsOnly rest
  | _ :: rest => addsOnly rest

/-- The normal names that a body registers before it raises anything. -/
def Action.names : List Action → List String
  | [] => []
  | .raise _ :: _ => []
  | .unknown _ :: _ => []
  | .define d _ :: rest => d.names ++ names rest
  | _ :: rest => names rest

/-- A module only registers neutral commands, and raises only what the loader reports. -/
def Module.Additive (B : Builtin → Prop) : Module → Prop
  | .unreadable => True
  | .script body => Action.addsOnly body = true
  | .builtin b => B b

/-- The normal names that a module registers before it raises anything. -/
def Module.names : Module → List String
  | .unreadable => []
  | .script body => Action.names body
  | .builtin b => b.declaration.names

/-- What an additive body registers is neutral. -/
theorem Action.neutral_of_addsOnly {d : Declaration} {body rest : List Action}
    (h : addsOnly (.define d body :: rest) = true) :
    (d.entry (.script body)).Neutral B ∧ addsOnly rest = true := by
  obtain ⟨hbody, hrest⟩ := Bool.and_eq_true_iff.mp h
  refine ⟨fun hcontext => ?_, hrest⟩
  have hpass : d.passContext = true := hcontext
  rw [hpass] at hbody
  exact hbody

/-! ## Registries -/

namespace Registry

instance (r : Registry) (key : String) : Decidable (r.Answers key) :=
  inferInstanceAs (Decidable (_ ∨ _))

/-- A registry without dangling aliases, in which every command is neutral. -/
structure Neutral (B : Builtin → Prop) (r : Registry) : Prop where
  /-- Every alias leads to a command. -/
  closed : r.NoDangling
  /-- Every handler is neutral. -/
  handlers : ∀ key e, r.commands.get? key = some e → e.Neutral B

/-- The empty registry is neutral. -/
theorem neutral_empty : empty.Neutral B where
  closed := noDangling_empty
  handlers _ _ h := nomatch h

/-- A neutral registry stays neutral when a neutral entry is added. -/
theorem Neutral.add {r : Registry} (h : r.Neutral B) {e : Entry} (he : e.Neutral B) :
    (r.add e).Neutral B where
  closed := h.closed.add e
  handlers key e' hkey := by
    rw [commands_add] at hkey
    split at hkey
    · cases hkey
      exact he
    · exact h.handlers key e' hkey

end Registry

end CommandShell
