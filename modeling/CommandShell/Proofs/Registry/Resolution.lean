import CommandShell.Proofs.Registry.Aliases
import CommandShell.Proofs.Registry.Redirects
import CommandShell.Proofs.Table

/-! # What names resolve to after a change

A look-up asks for a command of the name and then for an alias. This file says what a change of the registry
does to the answers:

* `find_add`: a new entry is found by its own name, and by its aliases and those of the command it replaces,
  unless they are names of other commands. All else is answered as before.
* `resolves_after_unregister_iff`: a removed entry is found by no name. Another command that was found by a
  name is still found by it, unless the removed entry takes the name away (`TakesAway`): it lists the alias,
  which leads to the other command by now. -/

namespace CommandShell

namespace Registry

variable {r : Registry} {e c : Entry} {name k : String}

/-! ## Adding an entry -/

/-- **Look-up after an addition.** The new entry is found by its name. Other commands are found by theirs.
Of the other names those lead to the new entry that it lists as aliases, or that were aliases of its name
before; and whatever is left is answered as before. -/
theorem find_add (r : Registry) (e : Entry) (name : String) :
    (r.add e).find name =
      if normalName name = normalName e.name then .ok (some e)
      else if (r.commands.get? (normalName name)).isSome then .ok (r.commands.get? (normalName name))
      else if normalName name ∈ e.aliases.map normalName ∨
        r.aliases.get? (normalName name) = some (normalName e.name) then .ok (some e)
      else r.find name := by
  have hself : (r.add e).commands.get? (normalName e.name) = some e := by
    rw [commands_add, if_pos rfl]
  have hother {k : String} (hk : k ≠ normalName e.name) :
      (r.add e).commands.get? k = r.commands.get? k := by
    rw [commands_add, if_neg (Ne.symm hk)]
  by_cases hname : normalName name = normalName e.name
  · rw [if_pos hname]
    exact find_of_command (hname ▸ hself)
  rw [if_neg hname]
  cases hcommand : r.commands.get? (normalName name) with
  | some old =>
    rw [if_pos Option.isSome_some]
    exact find_of_command ((hother hname).trans hcommand)
  | none =>
    have hcommand' := (hother hname).trans hcommand
    rw [if_neg (by simp)]
    by_cases hlisted : normalName name ∈ e.aliases.map normalName
    · rw [if_pos (.inl hlisted)]
      exact find_of_alias hcommand' (by rw [aliases_add, if_pos hlisted]) hself
    have halias : (r.add e).aliases.get? (normalName name) = r.aliases.get? (normalName name) := by
      rw [aliases_add, if_neg hlisted]
    by_cases hleads : r.aliases.get? (normalName name) = some (normalName e.name)
    · -- The alias of the command that the entry replaces, or one that dangled.
      rw [if_pos (.inr hleads)]
      exact find_of_alias hcommand' (halias.trans hleads) hself
    · rw [if_neg (not_or.mpr ⟨hlisted, hleads⟩)]
      refine find_congr (hother hname) halias fun k hk => hother ?_
      rintro rfl
      exact hleads hk

/-! ## Entries under their names -/

/-- A registry is **keyed** if its commands stand under their normal names, and no name stands twice. -/
structure Keyed (r : Registry) : Prop where
  /-- No name stands twice. -/
  nodup : r.commands.keys.Nodup
  /-- A command stands under its normal name. -/
  name_eq : ∀ k e, r.commands.get? k = some e → normalName e.name = k

/-- The empty registry is keyed. -/
theorem keyed_empty : empty.Keyed where
  nodup := List.nodup_nil
  name_eq _ _ h := by cases h

namespace Keyed

/-- An addition keeps a registry keyed: the entry comes under its normal name. -/
theorem add (h : r.Keyed) (e : Entry) : (r.add e).Keyed where
  nodup := Table.nodup_keys_put h.nodup _ _
  name_eq k e' hk := by
    rw [commands_add] at hk
    split at hk
    · rename_i hkey
      cases hk
      exact hkey
    · exact h.name_eq k e' hk

/-- A removal keeps a registry keyed. -/
theorem unregister (h : r.Keyed) (name : String) : (r.unregister name).Keyed := by
  cases hremoved : r.commands.get? (normalName name) with
  | none =>
    rw [unregister_of_none hremoved]
    exact h
  | some e =>
    refine ⟨?_, fun k e' hk => ?_⟩
    · simp only [Registry.unregister, hremoved]
      exact Table.nodup_keys_remove h.nodup _
    · rw [commands_unregister] at hk
      split at hk
      · cases hk
      · exact h.name_eq k e' hk

/-- Every call keeps a registry keyed. -/
theorem apply (h : r.Keyed) (call : Call) : (call.apply r).Keyed := by
  rcases call.apply_cases r with ⟨e, _, _, happly⟩ | ⟨name, _, _, happly⟩
  · rw [happly]
    exact h.add e
  · rw [happly]
    exact h.unregister name

/-- Any calls keep a registry keyed. -/
theorem run (h : r.Keyed) (calls : List Call) : (r.run calls).Keyed := by
  induction calls generalizing r with
  | nil => exact h
  | cons call calls ih => exact ih (h.apply call)

/-- One command does not stand under two names. -/
theorem key_unique (h : r.Keyed) {k' : String} (hk : r.commands.get? k = some e)
    (hk' : r.commands.get? k' = some e) : k = k' :=
  (h.name_eq k e hk).symm.trans (h.name_eq k' e hk')

end Keyed

/-! ## Removing a command -/

/-- A removed entry **takes a name away** if it lists the name as an alias, and no command has this name. -/
def TakesAway (r : Registry) (c : Entry) (name : String) : Prop :=
  r.commands.get? (normalName name) = none ∧ normalName name ∈ c.aliases.map normalName

/-- No name leads to a command after its removal. -/
theorem find_unregister_ne (h : r.Keyed) (hc : r.commands.get? (normalName k) = some c)
    (name : String) : (r.unregister k).find name ≠ .ok (some c) := by
  intro hfind
  obtain ⟨k', hk'⟩ := exists_get?_of_find hfind
  rw [commands_unregister] at hk'
  split at hk'
  · cases hk'
  · rename_i hne
    exact hne (h.key_unique hc hk')

/-- A name that is not taken away still leads to the other command. -/
theorem find_unregister_of_not_takesAway (hc : r.commands.get? (normalName k) = some c)
    (hfind : r.find name = .ok (some e)) (hne : e ≠ c) (hkeeps : ¬r.TakesAway c name) :
    (r.unregister k).find name = .ok (some e) := by
  have hother {k' : String} (hk' : r.commands.get? k' = some e) :
      (r.unregister k).commands.get? k' = some e := by
    rw [commands_unregister, if_neg, hk']
    rintro rfl
    rw [hc] at hk'
    exact hne (Option.some.inj hk').symm
  rcases find_eq_some_iff.mp hfind with hcommand | ⟨hcommand, target, halias, htarget⟩
  · exact find_of_command (hother hcommand)
  · refine find_of_alias ?_ ?_ (hother htarget)
    · rw [commands_unregister, hcommand, ite_self]
    · rw [aliases_unregister hc, if_neg fun hlisted => hkeeps ⟨hcommand, hlisted⟩, halias]

/-- A name that is taken away leads to nothing. -/
theorem find_unregister_of_takesAway (hc : r.commands.get? (normalName k) = some c)
    (htakes : r.TakesAway c name) : (r.unregister k).find name = .ok none := by
  refine find_of_unknown ?_ ?_
  · rw [commands_unregister, htakes.1, ite_self]
  · rw [aliases_unregister hc, if_pos htakes.2]

/-- **Look-up after a removal**, in a registry that was made by any calls. No name leads to the removed
command. A name that led to another command still does, unless it is taken away, and then it leads to nothing.
So all names that led to other commands still do exactly if the removed entry lists no alias, apart from names
of commands, that leads to another command. -/
theorem resolves_after_unregister_iff (calls : List Call)
    (hc : (empty.run calls).commands.get? (normalName k) = some c) :
    (∀ name, ((empty.run calls).unregister k).find name ≠ .ok (some c)) ∧
    (∀ name e, (empty.run calls).find name = .ok (some e) → e ≠ c →
      (¬(empty.run calls).TakesAway c name →
        ((empty.run calls).unregister k).find name = .ok (some e)) ∧
      ((empty.run calls).TakesAway c name → ((empty.run calls).unregister k).find name = .ok none)) ∧
    ((∀ name e, (empty.run calls).find name = .ok (some e) → e ≠ c →
        ((empty.run calls).unregister k).find name = .ok (some e)) ↔
      ∀ a ∈ c.aliases, ∀ e, (empty.run calls).find a = .ok (some e) → e ≠ c →
        (empty.run calls).commands.get? (normalName a) = some e) := by
  refine ⟨find_unregister_ne (keyed_empty.run calls) hc, fun name e hfind hne =>
    ⟨find_unregister_of_not_takesAway hc hfind hne, find_unregister_of_takesAway hc⟩, ?_, ?_⟩
  · intro hall a ha e hfind hne
    rcases find_eq_some_iff.mp hfind with hcommand | ⟨hcommand, _⟩
    · exact hcommand
    · -- An alias that is no name is taken away.
      have hafter := hall a e hfind hne
      rw [find_unregister_of_takesAway hc ⟨hcommand, List.mem_map_of_mem ha⟩] at hafter
      cases hafter
  · intro hall name e hfind hne
    refine find_unregister_of_not_takesAway hc hfind hne ?_
    rintro ⟨hcommand, hlisted⟩
    obtain ⟨a, ha, hname⟩ := List.mem_map.mp hlisted
    have hsame : (empty.run calls).find a = (empty.run calls).find name :=
      find_congr (by rw [hname]) (by rw [hname]) fun _ _ => rfl
    have ha' := hall a ha e (hsame.trans hfind) hne
    rw [hname, hcommand] at ha'
    cases ha'

/-- A command, and another that takes over its alias and has one more. -/
def aliasTaken : List Call :=
  [.register ⟨"stop", "Stop the clock", none, ["halt"], false⟩ (.script []),
    .register ⟨"quit", "Leave", none, ["halt", "exit"], false⟩ (.script [])]

/-- After the first command was removed no name leads to it, and the second one keeps the alias that only it
lists. -/
theorem exit_after_unregister :
    ∃ stop quit, (empty.run aliasTaken).commands.get? (normalName "stop") = some stop ∧
      (empty.run aliasTaken).find "exit" = .ok (some quit) ∧ quit.name = "quit" ∧
      (∀ name, ((empty.run aliasTaken).unregister "stop").find name ≠ .ok (some stop)) ∧
      ((empty.run aliasTaken).unregister "stop").find "exit" = .ok (some quit) := by
  have hstop : (empty.run aliasTaken).commands.get? (normalName "stop") = some _ := rfl
  have hexit : (empty.run aliasTaken).find "exit" = .ok (some _) := rfl
  obtain ⟨hgone, hkept, -⟩ := resolves_after_unregister_iff aliasTaken hstop
  refine ⟨_, _, hstop, hexit, rfl, hgone, (hkept "exit" _ hexit ?_).1 ?_⟩
  · intro heq
    exact absurd (congrArg Entry.name heq) (by decide)
  · rintro ⟨-, hlisted⟩
    exact absurd hlisted (by decide)

/-- **A name of another command may go with the removed one**: the alias leads to the second command, and to
nothing after the removal of the first. -/
theorem halt_after_unregister :
    ∃ stop quit, (empty.run aliasTaken).commands.get? (normalName "stop") = some stop ∧
      (empty.run aliasTaken).find "halt" = .ok (some quit) ∧ quit ≠ stop ∧ quit.name = "quit" ∧
      ((empty.run aliasTaken).unregister "stop").find "halt" = .ok none := by
  refine ⟨_, _, rfl, rfl, ?_, rfl, rfl⟩
  intro heq
  exact absurd (congrArg Entry.name heq) (by decide)

end Registry

/-! ## Adding through several registries -/

namespace Registries

variable {rs : Registries} {i : RegistryId}

/-- **Look-up after an addition to a registry that is not redirected.** The entry is added there and nowhere
else. It is found by its name. Other commands are found by theirs, whatever is an alias now or before. Of the
other names those lead to the entry that it lists as aliases or that were aliases of its name before; and
whatever is left is answered as before. -/
theorem found_after_add (h : rs.redirect? i = none) (e : Entry) :
    ∃ rs', rs.add? i e = some rs' ∧ (∀ j ≠ i, rs'.get j = rs.get j) ∧ ∀ name,
      (rs'.get i).find name =
        if normalName name = normalName e.name then .ok (some e)
        else if ((rs.get i).commands.get? (normalName name)).isSome then
          .ok ((rs.get i).commands.get? (normalName name))
        else if normalName name ∈ e.aliases.map normalName ∨
          (rs.get i).aliases.get? (normalName name) = some (normalName e.name) then .ok (some e)
        else (rs.get i).find name := by
  refine ⟨rs.set i ((rs.get i).add e), ?_, fun j hj => ?_, fun name => ?_⟩
  · rw [add?, target?_of_redirect?_none h]
    rfl
  · rw [get_set, if_neg (Ne.symm hj)]
  · rw [get_set, if_pos rfl]
    exact Registry.find_add _ e name

/-- An entry for a command without aliases. -/
def clockStop : Entry :=
  Declaration.entry ⟨"stop", "Stop the clock", none, [], false⟩ (.script [])

/-- A registry with this command and another one, to which a second registry is redirected. -/
def twoCommands : Registries where
  contents := ⟨[(.named "a", Registry.empty.run
    [.add clockStop, .register ⟨"quit", "Leave", none, ["exit"], false⟩ (.script [])])]⟩
  redirects := ⟨[(.global, .named "a")]⟩
  made := 2

/-- An entry for the second command, with the name of the first one and another as aliases. -/
def replacement : Entry :=
  Declaration.entry ⟨"quit", "Leave now", none, ["stop", "log-out"], false⟩ (.script [])

/-- The new entry is found by its name, its new alias and the alias of the old entry; the other command keeps
its name. -/
theorem found_after_add_replacement :
    twoCommands.redirect? (.named "a") = none ∧
      ∃ rs', twoCommands.add? (.named "a") replacement = some rs' ∧
        (rs'.get (.named "a")).find "quit" = .ok (some replacement) ∧
        (rs'.get (.named "a")).find "stop" = .ok (some clockStop) ∧
        (rs'.get (.named "a")).find "log_out" = .ok (some replacement) ∧
        (rs'.get (.named "a")).find "exit" = .ok (some replacement) ∧
        (rs'.get (.named "a")).find "help" = .ok none := by
  have h : twoCommands.redirect? (.named "a") = none := rfl
  obtain ⟨rs', hadd, -, hfind⟩ := found_after_add h replacement
  refine ⟨h, rs', hadd, ?_, ?_, ?_, ?_, ?_⟩
  · exact (hfind "quit").trans rfl
  · exact (hfind "stop").trans rfl
  · exact (hfind "log_out").trans rfl
  · exact (hfind "exit").trans rfl
  · exact (hfind "help").trans rfl

end Registries

end CommandShell
