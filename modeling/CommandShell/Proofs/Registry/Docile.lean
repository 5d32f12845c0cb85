import CommandShell.Proofs.Registry.Aliases

/-! # Docile commands

A command is **docile** if its handler removes no command, raises no fault of an unknown command itself
and does not use the session, and if neither its name nor an alias is empty. Which of the commands that
come with the shell may be called is a parameter `B`. A registry of docile commands stays docile when
docile commands are added (`Docile.add`), as long as none is removed: in it no look-up fails, and what it
answers it goes on to answer (`Answers.add`). -/

namespace CommandShell

variable {B : Builtin → Prop}

/-! ## Handlers and entries -/

/-- An action that leaves registry and session alone and does not say itself that a command is
unknown. -/
def Action.isPlain : Action → Bool
  | .raise _ => true
  | .print _ => true
  | .finish _ => true
  | .record _ => true
  | .load _ => true
  | .unknown _ => false
  | .run _ => false
  | .setInput _ => false
  | .define _ _ => false
  | .undefine _ => false

/-- Neither the name nor an alias is empty. -/
def Declaration.IsNamed (d : Declaration) : Prop := d.name ≠ "" ∧ "" ∉ d.aliases

/-- Actions that are plain or register docile commands. -/
inductive Action.Docile : List Action → Prop
  | nil : Docile []
  | plain {action : Action} {rest : List Action} (h : action.isPlain = true) (hrest : Docile rest) :
    Docile (action :: rest)
  | define {d : Declaration} {body rest : List Action} (hnamed : d.IsNamed) (hbody : Docile body)
    (hrest : Docile rest) : Docile (.define d body :: rest)

/-- A handler is docile. -/
def Handler.Docile (B : Builtin → Prop) : Handler → Prop
  | .script body => Action.Docile body
  | .builtin b _ => B b

/-- An entry is docile. -/
structure Entry.Docile (B : Builtin → Prop) (e : Entry) : Prop where
  /-- It has a name. -/
  name : e.name ≠ ""
  /-- No alias is empty. -/
  aliases : "" ∉ e.aliases
  /-- Its handler is docile. -/
  handler : e.handler.Docile B

/-- A named declaration with a docile handler makes a docile entry. -/
theorem Declaration.IsNamed.docile_entry {d : Declaration} (h : d.IsNamed) {handler : Handler}
    (hhandler : handler.Docile B) : (d.entry handler).Docile B := ⟨h.1, h.2, hhandler⟩

/-- The commands that come with the shell are named. -/
theorem Builtin.isNamed_declaration (b : Builtin) : b.declaration.IsNamed := by
  unfold Declaration.IsNamed
  cases b <;> decide

/-! ## Modules -/

/-- A body registers a command under a normal name before it raises anything. -/
def Action.registers (key : String) : List Action → Bool
  | [] => false
  | .define d _ :: rest => normalName d.name = key || registers key rest
  | .raise _ :: _ => false
  | .unknown _ :: _ => false
  | _ :: rest => registers key rest

/-- A module whose commands are docile, one of them under the normal name of the module. -/
def Module.Docile (B : Builtin → Prop) (key : String) : Module → Prop
  | .unreadable => False
  | .script body => Action.Docile body ∧ Action.registers key body = true
  | .builtin b => B b ∧ normalName b.declaration.name = key

/-- The normal name of a name is not empty either. -/
theorem normalName_ne_empty {name : String} (h : name ≠ "") : normalName name ≠ "" := by
  intro hnil
  have hchars : (normalName name).toList = [] := by rw [hnil]; rfl
  rw [normalName, String.toList_ofList] at hchars
  have hname : name.toList = [] := List.map_eq_nil_iff.mp hchars
  exact h (String.toList_eq_nil_iff.mp hname)

/-- What a docile module registers has a name. -/
theorem Action.Docile.key_ne_empty {key : String} {body : List Action} (h : Action.Docile body)
    (hkey : Action.registers key body = true) : key ≠ "" := by
  induction h with
  | nil => exact nomatch hkey
  | @plain action rest h _ ih =>
    cases action with
    | raise r => exact nomatch hkey
    | unknown name => exact nomatch h
    | define d body => exact nomatch h
    | _ => exact ih hkey
  | define hnamed _ _ _ ih =>
    rcases Bool.or_eq_true_iff.mp hkey with hname | hrest
    · rw [← of_decide_eq_true hname]
      exact normalName_ne_empty hnamed.1
    · exact ih hrest

/-- The normal name of a docile module is not empty. -/
theorem Module.Docile.key_ne_empty {m : Module} {key : String} (h : m.Docile B key) : key ≠ "" := by
  cases m with
  | unreadable => exact h.elim
  | script body => exact h.1.key_ne_empty h.2
  | builtin b =>
    rw [← h.2]
    exact normalName_ne_empty b.isNamed_declaration.1

namespace Registry

/-! ## What a registry answers -/

/-- A registry has a command or an alias of this normal name. -/
def Answers (r : Registry) (key : String) : Prop :=
  (r.commands.get? key).isSome ∨ (r.aliases.get? key).isSome

/-- What answers after an entry was added answered before, or is a name of the entry. -/
theorem answers_add_iff (r : Registry) (e : Entry) (key : String) :
    (r.add e).Answers key ↔ r.Answers key ∨ key ∈ (e.name :: e.aliases).map normalName := by
  unfold Answers
  rw [commands_add, aliases_add, List.map_cons, List.mem_cons, eq_comm (a := key)]
  by_cases hname : normalName e.name = key
  · simp [hname]
  · by_cases halias : key ∈ e.aliases.map normalName
    · rw [if_neg hname, if_pos halias]
      simp [halias]
    · rw [if_neg hname, if_neg halias]
      simp [hname, halias]

/-- What a registry answers it goes on to answer when an entry is added. -/
theorem Answers.add {r : Registry} {key : String} (h : r.Answers key) (e : Entry) :
    (r.add e).Answers key := (r.answers_add_iff e key).mpr (.inl h)

/-- A registry answers the name of an entry that was added. -/
theorem answers_add_self (r : Registry) (e : Entry) : (r.add e).Answers (normalName e.name) :=
  (r.answers_add_iff e _).mpr (.inr List.mem_cons_self)

/-- **A look-up without dangling aliases** gives a command of the registry if the registry answers, and
nothing otherwise. -/
theorem NoDangling.find_cases {r : Registry} (h : r.NoDangling) (name : String) :
    (r.Answers (normalName name) ∧
      ∃ e, r.find name = .ok (some e) ∧ ∃ key, r.commands.get? key = some e) ∨
      (¬ r.Answers (normalName name) ∧ r.find name = .ok none) := by
  cases hcommand : r.commands.get? (normalName name) with
  | some e =>
    exact .inl ⟨.inl (by rw [hcommand]; rfl), e, find_of_command hcommand, _, hcommand⟩
  | none =>
    cases halias : r.aliases.get? (normalName name) with
    | none =>
      exact .inr ⟨by simp [Answers, hcommand, halias], find_of_unknown hcommand halias⟩
    | some target =>
      obtain ⟨e, he⟩ := h.isSome halias
      exact .inl ⟨.inr (by rw [halias]; rfl), e, find_of_alias hcommand halias he, target, he⟩

/-! ## Docile registries -/

/-- A registry without dangling aliases, in which every command is docile. -/
structure Docile (B : Builtin → Prop) (r : Registry) : Prop where
  /-- Every alias leads to a command. -/
  closed : r.NoDangling
  /-- Every handler is docile. -/
  handlers : ∀ k e, r.commands.get? k = some e → e.handler.Docile B
  /-- Nothing is registered under the empty name. -/
  named : ¬ r.Answers ""

/-- The empty registry is docile. -/
theorem docile_empty : empty.Docile B where
  closed := noDangling_empty
  handlers k e h := nomatch h
  named h := by
    rcases h with h | h
    · exact nomatch h
    · exact nomatch h

/-- A docile registry stays docile when a docile entry is added. -/
theorem Docile.add {r : Registry} (h : r.Docile B) {e : Entry} (he : e.Docile B) :
    (r.add e).Docile B where
  closed := h.closed.add e
  handlers k e' hk := by
    rw [commands_add] at hk
    split at hk
    · cases hk
      exact he.handler
    · exact h.handlers k e' hk
  named hanswers := by
    rcases (r.answers_add_iff e "").mp hanswers with hanswers | hmem
    · exact h.named hanswers
    · obtain ⟨name, hname, hempty⟩ := List.mem_map.mp hmem
      have hne : name ≠ "" := by
        rintro rfl
        rcases List.mem_cons.mp hname with hname | hname
        · exact he.name hname.symm
        · exact he.aliases hname
      exact normalName_ne_empty hne hempty

/-- **A look-up in a docile registry** gives a docile command if the registry answers, and nothing
otherwise. -/
theorem Docile.find_cases {r : Registry} (h : r.Docile B) (name : String) :
    (r.Answers (normalName name) ∧ ∃ e, r.find name = .ok (some e) ∧ e.handler.Docile B) ∨
      (¬ r.Answers (normalName name) ∧ r.find name = .ok none) := by
  obtain ⟨hanswers, e, hfind, key, he⟩ | hnone := h.closed.find_cases name
  · exact .inl ⟨hanswers, e, hfind, h.handlers key e he⟩
  · exact .inr hnone

end Registry

end CommandShell
