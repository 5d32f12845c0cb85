import CommandShell.Proofs.Registry.Aliases
import CommandShell.Proofs.Table

/-! # Completions and look-up

A registry offers its names for completion, each with a description, and it looks names up. The two views
are gathered apart: completions come from the entries in the order of the table, a look-up asks for a
command first and then for an alias. This file says when they agree on a name (`AgreesOn`):

* `get?_completions`: a name is shown with the description of the last entry that lists it.
* `agreesOn_iff`: so the views agree on a name exactly if the look-up of a name that is shown gives an entry
  that lists it and has the description that is shown.
* `Orderly.agreesOn`: they agree on all names as long as commands of different names share no name or alias,
  however often commands are replaced and removed (`orderly_run`). -/

namespace CommandShell

namespace Entry

/-- An entry **lists** a name, as typed, if it is its own name or one of its aliases. -/
def Lists (e : Entry) (n : String) : Prop := n ∈ e.name :: e.aliases

instance (e : Entry) (n : String) : Decidable (e.Lists n) :=
  inferInstanceAs (Decidable (n ∈ e.name :: e.aliases))

/-- Two entries **clash** if they are for different commands but list names of one normal form. -/
def Clashes (e e' : Entry) : Prop :=
  normalName e.name ≠ normalName e'.name ∧
    ∃ n ∈ e.name :: e.aliases, ∃ n' ∈ e'.name :: e'.aliases, normalName n = normalName n'

instance (e e' : Entry) : Decidable (e.Clashes e') :=
  inferInstanceAs (Decidable (_ ∧ _))

/-- An entry lists its own name. -/
theorem lists_name (e : Entry) : e.Lists e.name := List.mem_cons_self

/-- An entry lists its aliases. -/
theorem lists_alias {e : Entry} {a : String} (h : a ∈ e.aliases) : e.Lists a :=
  List.mem_cons_of_mem _ h

/-- Entries that do not clash and list a name alike are for one command. -/
theorem normalName_eq_of_not_clashes {e e' : Entry} (h : ¬e.Clashes e') {n n' : String}
    (hn : e.Lists n) (hn' : e'.Lists n') (heq : normalName n = normalName n') :
    normalName e.name = normalName e'.name := by
  by_contra hne
  exact h ⟨hne, n, hn, n', hn', heq⟩

end Entry

namespace Registry

variable {r : Registry} {n k d : String} {e : Entry}

/-! ## What is shown -/

/-- The entry that a name is **shown for**: the last one in the table that lists it. -/
def shown? (r : Registry) (n : String) : Option Entry :=
  r.commands.values.reverse.find? fun e => decide (e.Lists n)

/-- What a name is shown for stands in the table and lists the name. -/
theorem mem_of_shown? (h : r.shown? n = some e) : e ∈ r.commands.values ∧ e.Lists n := by
  unfold shown? at h
  exact ⟨List.mem_reverse.mp (List.mem_of_find?_eq_some h), by simpa using List.find?_some h⟩

/-- A name that some entry lists is shown. -/
theorem exists_shown? (he : e ∈ r.commands.values) (hlists : e.Lists n) :
    ∃ e', r.shown? n = some e' :=
  Option.isSome_iff_exists.mp
    (List.find?_isSome.mpr ⟨e, List.mem_reverse.mpr he, decide_eq_true hlists⟩)

/-- One description put under several names stands under each of them. -/
theorem get?_foldl_put (names : List String) (description : String) (t : Table String String)
    (n : String) : (names.foldl (fun t m => t.put m description) t).get? n
      = if n ∈ names then some description else t.get? n := by
  induction names generalizing t with
  | nil => simp
  | cons m names ih =>
    rw [List.foldl_cons, ih, Table.get?_put]
    by_cases hn : n ∈ names
    · rw [if_pos hn, if_pos (List.mem_cons_of_mem _ hn)]
    · by_cases hm : m = n
      · rw [if_neg hn, if_pos hm, if_pos (by rw [hm]; exact List.mem_cons_self)]
      · rw [if_neg hn, if_neg hm, if_neg (by simp [hn, Ne.symm hm])]

/-- **A name is shown** with the description of the last entry that lists it. -/
theorem get?_completions (r : Registry) (n : String) :
    r.completions.get? n = (r.shown? n).map Entry.description := by
  unfold completions shown?
  -- The entry that was gone through last decides, and those before it only if it does not list the name.
  induction r.commands.values using List.reverseRecOn with
  | nil => rfl
  | append_singleton es last ih =>
    rw [List.foldl_append, List.foldl_cons, List.foldl_nil, get?_foldl_put, ih, List.reverse_append,
      List.reverse_singleton, List.singleton_append, List.find?_cons]
    by_cases hlast : last.Lists n
    · rw [decide_eq_true hlast]
      exact if_pos hlast
    · rw [decide_eq_false hlast]
      exact if_neg hlast

/-! ## When the views agree -/

/-- What is found stands in the table. -/
theorem mem_values_of_find (h : r.find n = .ok (some e)) : e ∈ r.commands.values := by
  obtain ⟨k, hk⟩ := exists_get?_of_find h
  exact List.mem_map_of_mem (Table.mem_of_get? hk)

/-- Completions and look-up **agree on a name**: it is shown with a description exactly if its look-up gives
an entry that lists it and has this description. -/
def AgreesOn (r : Registry) (n : String) : Prop :=
  ∀ d, r.completions.get? n = some d ↔
    ∃ e, r.find n = .ok (some e) ∧ e.Lists n ∧ e.description = d

/-- **Completions and look-up agree on a name** exactly if the name is not shown, or its look-up gives an
entry that lists it and has the description that is shown. -/
theorem agreesOn_iff (r : Registry) (n : String) :
    r.AgreesOn n ↔ ∀ e, r.shown? n = some e →
      ∃ e', r.find n = .ok (some e') ∧ e'.Lists n ∧ e'.description = e.description := by
  have hshown (d : String) : r.completions.get? n = some d ↔ ∃ e, r.shown? n = some e ∧ e.description = d := by
    rw [get?_completions, Option.map_eq_some_iff]
  constructor
  · intro h e he
    exact (h e.description).mp ((hshown _).mpr ⟨e, he, rfl⟩)
  · intro h d
    rw [hshown]
    constructor
    · rintro ⟨e, he, rfl⟩
      exact h e he
    · rintro ⟨e, hfind, hlists, rfl⟩
      -- The entry that is found lists the name, so the name is shown for some entry.
      obtain ⟨e', he'⟩ := exists_shown? (mem_values_of_find hfind) hlists
      obtain ⟨e'', hfind', _, hdescription⟩ := h e' he'
      rw [hfind] at hfind'
      cases hfind'
      exact ⟨e', he', hdescription.symm⟩

/-! ## Without clashes -/

/-- A registry is **orderly** with respect to some entries: those in it are among them, each under its
normal name only, and their aliases lead to them. -/
structure Orderly (es : List Entry) (r : Registry) : Prop where
  /-- No command stands twice. -/
  nodup : r.commands.keys.Nodup
  /-- A command stands under its normal name, and is one of the entries. -/
  entry : ∀ k e, (k, e) ∈ r.commands.toList → normalName e.name = k ∧ e ∈ es
  /-- The aliases of a command lead to it. -/
  leads : ∀ k e, r.commands.get? k = some e → ∀ a ∈ e.aliases, r.aliases.get? (normalName a) = some k

variable {es : List Entry}

/-- The empty registry is orderly. -/
theorem orderly_empty (es : List Entry) : Orderly es .empty where
  nodup := List.nodup_nil
  entry _ _ h := absurd h List.not_mem_nil
  leads _ _ h := by cases h

namespace Orderly

/-- A command of an orderly registry stands under its normal name and is one of the entries. -/
theorem of_get? (h : Orderly es r) (hk : r.commands.get? k = some e) :
    normalName e.name = k ∧ e ∈ es := h.entry k e (Table.mem_of_get? hk)

/-- Adding an entry that clashes with none keeps a registry orderly. -/
theorem add (h : Orderly es r) (hes : ∀ e ∈ es, ∀ e' ∈ es, ¬e.Clashes e') (he : e ∈ es) :
    Orderly es (r.add e) where
  nodup := Table.nodup_keys_put h.nodup _ _
  entry k e' hmem := by
    rcases Table.mem_put hmem with heq | hmem
    · cases heq
      exact ⟨rfl, he⟩
    · exact h.entry k e' hmem
  leads k e' hk a ha := by
    rw [commands_add] at hk
    rw [aliases_add]
    split at hk
    · rename_i hkey
      cases hk
      rw [if_pos (List.mem_map_of_mem ha), hkey]
    · -- Another command keeps its alias, since the new entry does not list it.
      rename_i hkey
      obtain ⟨hname, hmem⟩ := h.of_get? hk
      rw [if_neg, h.leads k e' hk a ha]
      intro hlisted
      obtain ⟨b, hb, hba⟩ := List.mem_map.mp hlisted
      exact hkey ((Entry.normalName_eq_of_not_clashes (hes e he e' hmem) (Entry.lists_alias hb)
        (Entry.lists_alias ha) hba).trans hname)

/-- Removing a command keeps a registry orderly. -/
theorem unregister (h : Orderly es r) (hes : ∀ e ∈ es, ∀ e' ∈ es, ¬e.Clashes e') (name : String) :
    Orderly es (r.unregister name) := by
  cases hremoved : r.commands.get? (normalName name) with
  | none =>
    rw [unregister_of_none hremoved]
    exact h
  | some e =>
    obtain ⟨hkey, he⟩ := h.of_get? hremoved
    have hcommands : (r.unregister name).commands = r.commands.remove (normalName name) := by
      simp only [Registry.unregister, hremoved]
    refine ⟨?_, fun k e' hmem => ?_, fun k e' hk a ha => ?_⟩
    · rw [hcommands]
      exact Table.nodup_keys_remove h.nodup _
    · rw [hcommands] at hmem
      exact h.entry k e' (Table.mem_of_mem_remove hmem)
    · -- The aliases that go with the command are none of another command.
      rw [commands_unregister] at hk
      split at hk
      · cases hk
      · rename_i hne
        obtain ⟨hname, hmem⟩ := h.of_get? hk
        rw [aliases_unregister hremoved, if_neg, h.leads k e' hk a ha]
        intro hlisted
        obtain ⟨b, hb, hba⟩ := List.mem_map.mp hlisted
        exact hne (hkey.symm.trans ((Entry.normalName_eq_of_not_clashes (hes e he e' hmem)
          (Entry.lists_alias hb) (Entry.lists_alias ha) hba).trans hname))

/-- **Look-up finds whatever lists a name**, if the entries do not clash. -/
theorem find_of_lists (h : Orderly es r) (hes : ∀ e ∈ es, ∀ e' ∈ es, ¬e.Clashes e')
    (hk : r.commands.get? k = some e) (hlists : e.Lists n) : r.find n = .ok (some e) := by
  obtain ⟨hname, he⟩ := h.of_get? hk
  cases hn : r.commands.get? (normalName n) with
  | some e' =>
    -- The command of this normal name is the entry itself.
    obtain ⟨hname', he'⟩ := h.of_get? hn
    have hsame := Entry.normalName_eq_of_not_clashes (hes e he e' he') hlists e'.lists_name hname'.symm
    have hself := hn
    rw [← hname', ← hsame, hname, hk] at hself
    cases hself
    exact find_of_command hn
  | none =>
    rcases List.mem_cons.mp hlists with rfl | ha
    · rw [hname, hk] at hn
      cases hn
    · exact find_of_alias hn (h.leads k e hk n ha) hk

/-- **Without clashes** the views agree on every name. -/
theorem agreesOn (h : Orderly es r) (hes : ∀ e ∈ es, ∀ e' ∈ es, ¬e.Clashes e') (n : String) :
    r.AgreesOn n := by
  refine (r.agreesOn_iff n).mpr fun e hshown => ?_
  obtain ⟨hmem, hlists⟩ := mem_of_shown? hshown
  obtain ⟨⟨k, _⟩, hpair, rfl⟩ := List.mem_map.mp hmem
  exact ⟨_, h.find_of_lists hes (Table.get?_of_mem h.nodup hpair) hlists, hlists, rfl⟩

end Orderly

/-- The entries that some calls add. -/
def added (calls : List Call) : List Entry := calls.filterMap Call.entry?

/-- **A run of calls** whose entries do not clash keeps a registry orderly. -/
theorem orderly_run (hes : ∀ e ∈ es, ∀ e' ∈ es, ¬e.Clashes e') (calls : List Call)
    (hcalls : ∀ e ∈ added calls, e ∈ es) (h : Orderly es r) : Orderly es (r.run calls) := by
  induction calls generalizing r with
  | nil => exact h
  | cons call calls ih =>
    have hrest : ∀ e ∈ added calls, e ∈ es := fun e he => hcalls e <| by
      obtain ⟨c, hc, hce⟩ := List.mem_filterMap.mp he
      exact List.mem_filterMap.mpr ⟨c, List.mem_cons_of_mem _ hc, hce⟩
    refine ih hrest ?_
    rcases call.apply_cases r with ⟨e, hadd, _, happly⟩ | ⟨name, _, _, happly⟩
    · rw [happly]
      exact h.add hes (hcalls e (List.mem_filterMap.mpr ⟨call, List.mem_cons_self, hadd⟩))
    · rw [happly]
      exact h.unregister hes name

/-- **Completions against look-up.** After any calls on an empty registry a name is shown with the
description of the last entry in the table that lists it. So the views agree on a name exactly if it is not
shown, or its look-up gives an entry that lists it and has the description that is shown. They agree on all
names if no two entries of the calls clash. -/
theorem completions_agree_iff (calls : List Call) :
    (∀ n, (empty.run calls).completions.get? n = ((empty.run calls).shown? n).map Entry.description) ∧
    (∀ n, (empty.run calls).AgreesOn n ↔ ∀ e, (empty.run calls).shown? n = some e →
      ∃ e', (empty.run calls).find n = .ok (some e') ∧ e'.Lists n ∧ e'.description = e.description) ∧
    ((∀ e ∈ added calls, ∀ e' ∈ added calls, ¬e.Clashes e') → ∀ n, (empty.run calls).AgreesOn n) := by
  refine ⟨get?_completions _, agreesOn_iff _, fun hclash n => ?_⟩
  exact (orderly_run hclash calls (fun _ h => h) (orderly_empty _)).agreesOn hclash n

/-- Two commands apart, of which one is replaced under another spelling and the other is removed. -/
def keptApart : List Call :=
  [.register ⟨"stop-all", "Stop the clock", none, ["halt"], false⟩ (.script []),
    .register ⟨"quit", "Leave", none, ["q"], false⟩ (.script []),
    .register ⟨"stop_all", "Stop all clocks", none, ["stop-all", "halt"], false⟩ (.script []),
    .unregister "quit"]

/-- Commands that are kept apart are shown as they are found. -/
theorem completions_agree_of_keptApart :
    (∀ e ∈ added keptApart, ∀ e' ∈ added keptApart, ¬e.Clashes e') ∧
      ∀ n, (empty.run keptApart).AgreesOn n :=
  have hclash : ∀ e ∈ added keptApart, ∀ e' ∈ added keptApart, ¬e.Clashes e' := by decide
  ⟨hclash, (completions_agree_iff keptApart).2.2 hclash⟩

/-- A command, and another that takes its name as an alias. -/
def nameTaken : List Call :=
  [.register ⟨"stop", "Stop the clock", none, [], false⟩ (.script []),
    .register ⟨"quit", "Leave", none, ["stop"], false⟩ (.script [])]

/-- The name of a command is shown with the description of another command, of which it is an alias. -/
theorem shown_for_other_command :
    (empty.run nameTaken).completions.get? "stop" = some "Leave" ∧
      (∃ e, (empty.run nameTaken).find "stop" = .ok (some e) ∧ e.name = "stop" ∧
        e.description = "Stop the clock") ∧
      ¬(empty.run nameTaken).AgreesOn "stop" := by
  have hshown : (empty.run nameTaken).completions.get? "stop" = some "Leave" := by rfl
  refine ⟨hshown, ⟨_, rfl, rfl, rfl⟩, fun h => ?_⟩
  obtain ⟨e, hfind, _, hdescription⟩ := (h "Leave").mp hshown
  cases hfind
  exact absurd hdescription (by decide)

end Registry

end CommandShell
