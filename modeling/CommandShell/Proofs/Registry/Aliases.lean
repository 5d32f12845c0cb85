import CommandShell.Registry
import Mathlib.Data.List.Basic
import Mathlib.Data.List.Induction

/-! # Aliases that lead nowhere

A registry keeps two tables, entries by normal name and the names that aliases lead to. An alias
**dangles** when no entry stands where it leads. This file says exactly when that happens:

* `dangles_apply_iff`: one call leaves an alias dangling iff it dangled before and the call does not
  heal it, or the call removes a command whose present entry does not list the alias.
* `dangles_run_iff`: over a whole run of calls, the aliases that dangle at the end are those that some
  removal orphaned and that no later call healed.
* `find_eq_some_iff`, `find_eq_error_iff`: a look-up asks for a command of the name and then for an alias,
  and it fails exactly on a dangling alias that is no command itself. -/

namespace CommandShell.Registry

/-! ## What the operations do to the two tables -/

/-- A fold that treats the table alike at the normal form of each name, and leaves it alone elsewhere,
treats it so at all of these forms. -/
theorem get?_foldl_names (step : Table String String → String → Table String String)
    (v : Option String)
    (hstep : ∀ t n a, (step t n).get? a = if normalName n = a then v else t.get? a)
    (names : List String) (t : Table String String) (a : String) :
    (names.foldl step t).get? a = if a ∈ names.map normalName then v else t.get? a := by
  induction names generalizing t with
  | nil => simp
  | cons n names ih =>
    -- The rest of the fold decides, unless only the first name is the one asked for.
    rw [List.foldl_cons, ih, hstep, List.map_cons]
    by_cases h : a ∈ names.map normalName
    · rw [if_pos h, if_pos (List.mem_cons_of_mem _ h)]
    · by_cases hn : normalName n = a
      · rw [if_neg h, if_pos hn, if_pos (by rw [hn]; exact List.mem_cons_self)]
      · rw [if_neg h, if_neg hn, if_neg]
        intro hmem
        rcases List.mem_cons.mp hmem with h' | h'
        · exact hn h'.symm
        · exact h h'

/-- Adding an entry stores it under its normal name and nowhere else. -/
theorem commands_add (r : Registry) (e : Entry) (k : String) :
    (r.add e).commands.get? k = if normalName e.name = k then some e else r.commands.get? k :=
  Table.get?_put _ _ _ _

/-- Adding an entry makes exactly its own aliases lead to it. -/
theorem aliases_add (r : Registry) (e : Entry) (a : String) :
    (r.add e).aliases.get? a
      = if a ∈ e.aliases.map normalName then some (normalName e.name) else r.aliases.get? a :=
  get?_foldl_names _ _ (fun t n a => t.get?_put (normalName n) a (normalName e.name)) _ _ _

/-- Removing a name without command changes nothing. -/
theorem unregister_of_none {r : Registry} {name : String}
    (h : r.commands.get? (normalName name) = none) : r.unregister name = r := by
  simp only [unregister, h]

/-- Removing a name takes away the command of this name and no other. -/
theorem commands_unregister (r : Registry) (name k : String) :
    (r.unregister name).commands.get? k
      = if normalName name = k then none else r.commands.get? k := by
  cases h : r.commands.get? (normalName name) with
  | none =>
    rw [unregister_of_none h]
    split
    · rename_i hk
      rw [← hk, h]
    · rfl
  | some e =>
    simp only [unregister, h]
    exact Table.get?_remove _ _ _

/-- Removing a command takes away the aliases that its present entry lists. -/
theorem aliases_unregister {r : Registry} {name : String} {e : Entry}
    (h : r.commands.get? (normalName name) = some e) (a : String) :
    (r.unregister name).aliases.get? a
      = if a ∈ e.aliases.map normalName then none else r.aliases.get? a := by
  simp only [unregister, h]
  exact get?_foldl_names _ _ (fun t n a => t.get?_remove (normalName n) a) _ _ _

/-! ## Looking up -/

section Find

variable {r : Registry} {e : Entry} {name k : String}

/-- A command is found by its name. -/
theorem find_of_command (h : r.commands.get? (normalName name) = some e) :
    r.find name = .ok (some e) := by
  simp only [find, h]

/-- The command to which an alias leads is found by the alias, if that is no name of a command. -/
theorem find_of_alias (hname : r.commands.get? (normalName name) = none)
    (halias : r.aliases.get? (normalName name) = some k) (hk : r.commands.get? k = some e) :
    r.find name = .ok (some e) := by
  simp only [find, hname, halias, hk]

/-- What is neither a name nor an alias leads to nothing. -/
theorem find_of_unknown (hname : r.commands.get? (normalName name) = none)
    (halias : r.aliases.get? (normalName name) = none) : r.find name = .ok none := by
  simp only [find, hname, halias]

/-- **What is found** is the command of the name, or else the one to which the alias leads. -/
theorem find_eq_some_iff :
    r.find name = .ok (some e) ↔ r.commands.get? (normalName name) = some e ∨
      r.commands.get? (normalName name) = none ∧
        ∃ k, r.aliases.get? (normalName name) = some k ∧ r.commands.get? k = some e := by
  constructor
  · intro h
    simp only [find] at h
    split at h
    · rename_i hcommand
      cases h
      exact .inl hcommand
    · rename_i hcommand
      split at h
      · cases h
      · rename_i k halias
        split at h
        · rename_i hk
          cases h
          exact .inr ⟨hcommand, k, halias, hk⟩
        · cases h
  · rintro (hcommand | ⟨hcommand, k, halias, hk⟩)
    · exact find_of_command hcommand
    · exact find_of_alias hcommand halias hk

/-- Whatever is found is a command of the registry. -/
theorem exists_get?_of_find (h : r.find name = .ok (some e)) : ∃ k, r.commands.get? k = some e := by
  rcases find_eq_some_iff.mp h with hcommand | ⟨_, k, _, hk⟩
  · exact ⟨_, hcommand⟩
  · exact ⟨k, hk⟩

/-- Look-ups agree where the tables do. -/
theorem find_congr {r' : Registry} {name' : String}
    (hcommand : r'.commands.get? (normalName name') = r.commands.get? (normalName name))
    (halias : r'.aliases.get? (normalName name') = r.aliases.get? (normalName name))
    (htarget : ∀ k, r.aliases.get? (normalName name) = some k → r'.commands.get? k = r.commands.get? k) :
    r'.find name' = r.find name := by
  simp only [find, hcommand, halias]
  cases hk : r.aliases.get? (normalName name) with
  | none => rfl
  | some k => simp only [htarget k hk]

end Find

/-! ## Dangling aliases -/

/-- The alias `a` leads to `k`, where no entry stands. -/
def Dangles (r : Registry) (a k : String) : Prop :=
  r.aliases.get? a = some k ∧ r.commands.get? k = none

/-- Every alias leads to an entry. -/
def NoDangling (r : Registry) : Prop := ∀ a k, ¬ r.Dangles a k

/-- In the empty registry nothing dangles. -/
theorem noDangling_empty : NoDangling .empty := by
  rintro a k ⟨h, -⟩
  exact absurd h (by simp [empty, EmptyCollection.emptyCollection])

/-- Where nothing dangles, an alias leads to a command. -/
theorem NoDangling.isSome {r : Registry} (h : r.NoDangling) {a k : String}
    (ha : r.aliases.get? a = some k) : ∃ e, r.commands.get? k = some e := by
  cases hk : r.commands.get? k with
  | none => exact absurd ⟨ha, hk⟩ (h a k)
  | some e => exact ⟨e, rfl⟩

/-- A look-up fails exactly on a dangling alias that is not itself the name of a command. -/
theorem find_eq_error_iff (r : Registry) (name k : String) :
    r.find name = .error k
      ↔ r.commands.get? (normalName name) = none ∧ r.Dangles (normalName name) k := by
  rw [find, Dangles]
  -- The name of a command has precedence, and only then an alias is followed.
  cases r.commands.get? (normalName name) with
  | some e => simp
  | none =>
    cases r.aliases.get? (normalName name) with
    | none => simp
    | some t =>
      cases ht : r.commands.get? t with
      | some e =>
        simp only [ht]
        constructor
        · intro h
          exact absurd h (by simp)
        · rintro ⟨-, htk, hk⟩
          rw [← Option.some.inj htk, ht] at hk
          cases hk
      | none =>
        simp only [ht]
        constructor
        · intro h
          cases h
          exact ⟨trivial, rfl, ht⟩
        · rintro ⟨-, htk, -⟩
          rw [Option.some.inj htk]

/-- Without dangling aliases every look-up gives an entry or nothing. -/
theorem NoDangling.find_ok {r : Registry} (h : r.NoDangling) (name : String) :
    ∃ found, r.find name = .ok found := by
  cases hf : r.find name with
  | error k => exact absurd ((r.find_eq_error_iff name k).mp hf).2 (h _ _)
  | ok found => exact ⟨found, rfl⟩

/-- Adding an entry never makes an alias dangle. -/
theorem NoDangling.add {r : Registry} (h : r.NoDangling) (e : Entry) : (r.add e).NoDangling := by
  rintro a k ⟨ha, hk⟩
  rw [aliases_add] at ha
  rw [commands_add] at hk
  split at hk
  · cases hk
  · rename_i hne
    split at ha
    · exact hne (Option.some.inj ha)
    · exact h a k ⟨ha, hk⟩

/-! ## Calls on a registry -/

/-- A call that changes a registry: a declaration is registered with a handler, an entry is added, or
a name is removed. -/
inductive Call
  | register (declaration : Declaration) (handler : Handler)
  | add (entry : Entry)
  | unregister (name : String)

namespace Call

/-- The entry that a call adds. -/
def entry? : Call → Option Entry
  | register d h => some (d.entry h)
  | add e => some e
  | unregister _ => none

/-- The name that a call removes. -/
def removed? : Call → Option String
  | unregister n => some n
  | _ => none

/-- What a call makes of a registry. -/
def apply (r : Registry) : Call → Registry
  | register d h => r.add (d.entry h)
  | add e => r.add e
  | unregister n => r.unregister n

/-- A call either adds an entry or removes a name. -/
theorem apply_cases (r : Registry) (c : Call) :
    (∃ e, c.entry? = some e ∧ c.removed? = none ∧ c.apply r = r.add e)
      ∨ ∃ n, c.entry? = none ∧ c.removed? = some n ∧ c.apply r = r.unregister n := by
  cases c with
  | register d h => exact Or.inl ⟨_, rfl, rfl, rfl⟩
  | add e => exact Or.inl ⟨_, rfl, rfl, rfl⟩
  | unregister n => exact Or.inr ⟨_, rfl, rfl, rfl⟩

/-- A call **heals** the alias `a` of `k`: it adds an entry under `k` or one that lists `a`, or it
removes a command whose entry lists `a`. -/
def Heals (r : Registry) (a k : String) (c : Call) : Prop :=
  (∃ e, c.entry? = some e ∧ (normalName e.name = k ∨ a ∈ e.aliases.map normalName))
    ∨ ∃ n e, c.removed? = some n ∧ r.commands.get? (normalName n) = some e
        ∧ a ∈ e.aliases.map normalName

/-- A call **orphans** the alias `a` of `k`: it removes the command `k`, to which `a` leads, but its
present entry does not list `a`. -/
def Orphans (r : Registry) (a k : String) (c : Call) : Prop :=
  ∃ n e, c.removed? = some n ∧ normalName n = k ∧ r.commands.get? k = some e
    ∧ r.aliases.get? a = some k ∧ a ∉ e.aliases.map normalName

end Call

open Call

/-- What dangles after an entry was added: what dangled before, unless the entry heals it. -/
theorem dangles_add_iff (r : Registry) (e : Entry) (a k : String) :
    (r.add e).Dangles a k
      ↔ r.Dangles a k ∧ ¬ (normalName e.name = k ∨ a ∈ e.aliases.map normalName) := by
  unfold Dangles
  rw [aliases_add, commands_add]
  by_cases hk : normalName e.name = k
  · simp [hk]
  · by_cases ha : a ∈ e.aliases.map normalName
    · simp [hk, ha]
    · simp [hk, ha]

/-- What dangles after a command was removed: what dangled before and was not taken away with it, and
the aliases that led to it but that its entry did not list. -/
theorem dangles_unregister_iff {r : Registry} {n : String} {e : Entry}
    (he : r.commands.get? (normalName n) = some e) (a k : String) :
    (r.unregister n).Dangles a k
      ↔ a ∉ e.aliases.map normalName
        ∧ (r.Dangles a k ∨ normalName n = k ∧ r.aliases.get? a = some k) := by
  unfold Dangles
  rw [aliases_unregister he, commands_unregister]
  by_cases ha : a ∈ e.aliases.map normalName
  · simp [ha]
  · rw [if_neg ha]
    by_cases hk : normalName n = k
    · rw [if_pos hk]
      subst hk
      simp [ha, he]
    · simp [ha, hk]

/-- **One call.** An alias dangles after a call iff it dangled before and the call does not heal it,
or the call orphans it. -/
theorem dangles_apply_iff (r : Registry) (c : Call) (a k : String) :
    (c.apply r).Dangles a k ↔ r.Dangles a k ∧ ¬ c.Heals r a k ∨ c.Orphans r a k := by
  rcases c.apply_cases r with ⟨e, hadd, hrem, happ⟩ | ⟨n, hadd, hrem, happ⟩
  · rw [happ, dangles_add_iff]
    simp [Heals, Orphans, hadd, hrem]
  · rw [happ]
    simp only [Heals, Orphans, hadd, hrem, Option.some.injEq, reduceCtorEq, false_and,
      exists_false, false_or, exists_and_left, exists_eq_left']
    cases he : r.commands.get? (normalName n) with
    | none =>
      -- Nothing is removed, so nothing can be healed or orphaned.
      rw [unregister_of_none he]
      constructor
      · intro h
        exact Or.inl ⟨h, by rintro ⟨e, h', -⟩; cases h'⟩
      · rintro (⟨h, -⟩ | ⟨rfl, e, he', -⟩)
        · exact h
        · rw [he] at he'
          cases he'
    | some e =>
      rw [dangles_unregister_iff he]
      constructor
      · rintro ⟨ha, hd | ⟨rfl, hl⟩⟩
        · refine Or.inl ⟨hd, ?_⟩
          rintro ⟨e', h', ha'⟩
          cases h'
          exact ha ha'
        · exact Or.inr ⟨rfl, e, he, hl, ha⟩
      · rintro (⟨hd, hh⟩ | ⟨rfl, e', he', hl, ha⟩)
        · exact ⟨fun ha => hh ⟨e, rfl, ha⟩, Or.inl hd⟩
        · rw [he] at he'
          cases he'
          exact ⟨ha, Or.inr ⟨rfl, hl⟩⟩

/-! ## Runs of calls -/

/-- The registry after some calls. -/
def run (r : Registry) (calls : List Call) : Registry := calls.foldl Call.apply r

/-- No calls leave the registry as it is. -/
@[simp] theorem run_nil (r : Registry) : r.run [] = r := rfl

/-- Calls may be split into earlier and later ones. -/
theorem run_append (r : Registry) (calls more : List Call) :
    r.run (calls ++ more) = (r.run calls).run more := List.foldl_append

/-- The last call acts on the registry that the others leave. -/
theorem run_concat (r : Registry) (calls : List Call) (c : Call) :
    r.run (calls ++ [c]) = c.apply (r.run calls) := by
  rw [run_append]
  rfl

/-- Some call of a run heals the alias `a` of `k`. -/
def Healed (r : Registry) (a k : String) : List Call → Prop
  | [] => False
  | c :: calls => c.Heals r a k ∨ Healed (c.apply r) a k calls

/-- An alias is healed by the earlier calls or by the last one. -/
theorem healed_concat (r : Registry) (a k : String) (calls : List Call) (c : Call) :
    Healed r a k (calls ++ [c]) ↔ Healed r a k calls ∨ c.Heals (r.run calls) a k := by
  induction calls generalizing r with
  | nil => simp [Healed]
  | cons b calls ih =>
    rw [List.cons_append, Healed, Healed, ih, or_assoc]
    rfl

/-- A run leaves the alias `a` of `k` an **orphan**: some call orphans it and no later one heals it. -/
def LeavesOrphan (r : Registry) (calls : List Call) (a k : String) : Prop :=
  ∃ before c after, calls = before ++ c :: after ∧ c.Orphans (r.run before) a k
    ∧ ¬ Healed (r.run (before ++ [c])) a k after

/-- **A whole run.** The aliases that dangle after a run from a registry without dangling aliases are
exactly the orphans that it leaves. -/
theorem dangles_run_iff {r : Registry} (hr : r.NoDangling) (calls : List Call) (a k : String) :
    (r.run calls).Dangles a k ↔ r.LeavesOrphan calls a k := by
  unfold LeavesOrphan
  -- Induction from the end: the last call either orphans the alias or leaves it to the run before.
  induction calls using List.reverseRecOn with
  | nil =>
    constructor
    · intro h
      exact absurd h (hr a k)
    · rintro ⟨before, c, after, h, -⟩
      exact absurd h (by simp)
  | append_singleton calls last ih =>
    rw [run_concat, dangles_apply_iff, ih]
    constructor
    · -- The orphan of the run before stays one, or the last call makes a new one.
      rintro (⟨⟨before, c, after, rfl, ho, hh⟩, hl⟩ | ho)
      · refine ⟨before, c, after ++ [last], by simp, ho, ?_⟩
        rw [healed_concat, ← run_append]
        rintro (h | h)
        · exact hh h
        · exact hl (by simpa using h)
      · exact ⟨calls, last, [], rfl, ho, id⟩
    · rintro ⟨before, c, after, heq, ho, hh⟩
      -- The orphaning call is the last one, or it stands in the run before.
      rcases List.eq_nil_or_concat' after with rfl | ⟨after, last', rfl⟩
      · obtain ⟨rfl, hc⟩ := List.append_inj' heq rfl
        cases hc
        exact Or.inr ho
      · rw [← List.cons_append, ← List.append_assoc] at heq
        obtain ⟨rfl, hc⟩ := List.append_inj' heq rfl
        cases hc
        rw [healed_concat, ← run_append, not_or] at hh
        refine Or.inl ⟨⟨before, c, after, rfl, ho, hh.1⟩, ?_⟩
        simpa using hh.2

/-- **Where aliases lead.** After any calls on an empty registry, all aliases lead to commands exactly
if the calls leave no orphan; and a look-up gives an entry or nothing, unless its name is such an
orphan and no command. -/
theorem aliases_lead_to_commands_iff (calls : List Call) :
    ((∀ a k, (empty.run calls).aliases.get? a = some k →
        ∃ e, (empty.run calls).commands.get? k = some e)
      ↔ ∀ a k, ¬ empty.LeavesOrphan calls a k)
    ∧ ∀ name, (∃ found, (empty.run calls).find name = .ok found)
      ↔ ¬ ((empty.run calls).commands.get? (normalName name) = none
          ∧ ∃ k, empty.LeavesOrphan calls (normalName name) k) := by
  have hrun := dangles_run_iff noDangling_empty calls
  constructor
  · constructor
    · intro h a k ho
      obtain ⟨ha, hk⟩ := (hrun a k).mpr ho
      obtain ⟨e, he⟩ := h a k ha
      rw [hk] at he
      exact nomatch he
    · intro h a k ha
      have hnone : (empty.run calls).NoDangling := fun a k hd => h a k ((hrun a k).mp hd)
      exact hnone.isSome ha
  · -- A look-up fails on a dangling alias only, and these are the orphans.
    intro name
    constructor
    · rintro ⟨found, hf⟩ ⟨hname, k, ho⟩
      rw [(find_eq_error_iff _ _ k).mpr ⟨hname, (hrun _ k).mpr ho⟩] at hf
      exact nomatch hf
    · intro h
      cases hf : (empty.run calls).find name with
      | ok found => exact ⟨found, rfl⟩
      | error k =>
        obtain ⟨hname, hd⟩ := (find_eq_error_iff _ _ k).mp hf
        exact absurd ⟨hname, k, (hrun _ k).mp hd⟩ h

/-- A command registered with an alias, registered again without it, and removed. -/
def registeredTwice : List Call :=
  [.register ⟨"quit", "Exit", none, ["exit"], false⟩ (.script []),
    .register ⟨"quit", "Leave", none, [], false⟩ (.script []),
    .unregister "quit"]

/-- The alias of the first registration outlives the command, and looking it up fails. -/
theorem find_alias_of_registeredTwice :
    (empty.run registeredTwice).aliases.get? "exit" = some "quit"
      ∧ (empty.run registeredTwice).commands.get? "quit" = none
      ∧ (empty.run registeredTwice).find "exit" = .error "quit" := by
  refine ⟨by rfl, by rfl, by rfl⟩

end CommandShell.Registry
