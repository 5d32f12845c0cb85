import CommandShell.Proofs.Loader.Within
import CommandShell.Proofs.Registry.Resolution
import Mathlib.Data.String.Basic

/-! # Listing a registry

The commands of a registry are listed by name. In a keyed registry the names are all different, so the list is
strictly ascending, and it holds just the entries that are found by their names (`Keyed.pairwise_all`,
`Keyed.mem_all_iff`). Registries are keyed however they are used side by side, with redirections among them
that are entered and left in any order (`AllKeyed.after`). So whatever is done with registries, each of them is
listed, gone through, counted and looked up alike (`listed_after`). -/

namespace CommandShell

namespace Registry

variable {r : Registry} {e : Entry}

/-! ## The list -/

/-- The list of all commands has just the entries of the table. -/
theorem mem_all : e ∈ r.all ↔ e ∈ r.commands.values :=
  (List.mergeSort_perm _ _).mem_iff

/-- As many entries are listed as there are commands. -/
theorem length_all (r : Registry) : r.all.length = r.size := by
  rw [all, List.length_mergeSort, Table.values, List.length_map]
  rfl

/-- The entries that are visited when a registry is gone through, in this order. -/
def visited (r : Registry) : List Entry := Id.run do
  let mut es := #[]
  for e in r do
    es := es.push e
  return es.toList

/-- Going through a registry visits what is listed. -/
theorem visited_eq_all (r : Registry) : r.visited = r.all := by
  show (forIn r.all #[] fun e es => pure (.yield (es.push e)) : Id (Array Entry)).run.toList = r.all
  simp

namespace Keyed

/-- The names in a keyed registry are all different. -/
theorem nodup_names (h : r.Keyed) : (r.commands.values.map Entry.name).Nodup := by
  -- Names of one normal form would stand at one key.
  have hkeys : (r.commands.values.map Entry.name).map normalName = r.commands.keys := by
    rw [Table.values, Table.keys, List.map_map, List.map_map]
    refine List.map_congr_left fun p hp => ?_
    exact h.name_eq p.1 p.2 (Table.get?_of_mem h.nodup hp)
  have hnodup := h.nodup
  rw [← hkeys] at hnodup
  exact hnodup.of_map

/-- **The list is strictly ascending**, so no name is in it twice. -/
theorem pairwise_all (h : r.Keyed) : r.all.Pairwise fun e e' => e.name < e'.name :=
  pairwise_mergeSort_by_lt Entry.name h.nodup_names

/-- **The entries in the list** are those that are found by their names. -/
theorem mem_all_iff (h : r.Keyed) : e ∈ r.all ↔ r.find e.name = .ok (some e) := by
  rw [mem_all]
  constructor
  · intro hmem
    obtain ⟨⟨k, _⟩, hpair, rfl⟩ := List.mem_map.mp hmem
    have hk := Table.get?_of_mem h.nodup hpair
    refine find_of_command ?_
    rw [h.name_eq k _ hk, hk]
  · intro hfind
    obtain ⟨k, hk⟩ := exists_get?_of_find hfind
    exact List.mem_map_of_mem (Table.mem_of_get? hk)

end Keyed

/-- A registry is **listed as it is looked up**. -/
structure ListedAsFound (r : Registry) : Prop where
  /-- The list is strictly ascending by name. -/
  ascending : r.all.Pairwise fun e e' => e.name < e'.name
  /-- It is as long as there are commands. -/
  length_eq : r.all.length = r.size
  /-- Going through the registry visits what is listed. -/
  visited_eq : r.visited = r.all
  /-- An entry is listed exactly if it is found by its name. -/
  mem_iff : ∀ e, e ∈ r.all ↔ r.find e.name = .ok (some e)

/-- A registry that is keyed is listed as its commands are found. -/
theorem Keyed.listedAsFound (h : r.Keyed) : r.ListedAsFound :=
  ⟨h.pairwise_all, length_all r, visited_eq_all r, fun _ => h.mem_all_iff⟩

end Registry

/-! ## Registries side by side -/

/-- A call on one of the registries of a shell. -/
def Registry.Call.perform (i : RegistryId) : Registry.Call → Shell Unit
  | .register d handler => Shell.register i (d.entry handler)
  | .add e => Shell.add i e
  | .unregister name => Shell.unregister i name

/-- The world in which an entry got its number. -/
def World.numbering (w : World) (e : Entry) : World := { w with registries := (w.registries.number e).2 }

/-- Registering an entry is adding it with its number. -/
theorem World.after_register (w : World) (i : RegistryId) (e : Entry) :
    w.after (Shell.register i e) = (w.numbering e).after (Shell.add i (w.registries.number e).1) := by
  unfold World.after
  rw [Shell.run_register_eq]
  rfl

namespace Registries

/-- What is done with registries: a call on one of them, or to enter a redirection, or to leave one of those
that were entered, which are counted from the latest. -/
inductive Step
  | call (i : RegistryId) (call : Registry.Call)
  | enter (i target : RegistryId)
  | leave (place : Nat)

/-- A world, and the redirections that were entered in it and not left, the latest first. -/
structure Situation where
  /-- The world, with the registries. -/
  world : World
  /-- The redirections. -/
  entered : List Redirection

namespace Situation

/-- A world with registries in which there is nothing yet. -/
def start (w : World) : Situation := ⟨{ w with registries := ⟨{}, {}, 0⟩ }, []⟩

/-- The registries in a situation. -/
def registries (σ : Situation) : Registries := σ.world.registries

/-- The situation with other registries. -/
def withRegistries (σ : Situation) (rs : Registries) : Situation :=
  { σ with world := { σ.world with registries := rs } }

/-- The situation after a call on a registry, however it ends: an addition fails if the redirections go in a
circle. -/
def called (σ : Situation) (i : RegistryId) (call : Registry.Call) : Situation :=
  { σ with world := σ.world.after (call.perform i) }

/-- The situation after a registry was redirected. -/
def redirected (σ : Situation) (i target : RegistryId) : Situation :=
  { σ.withRegistries (σ.registries.enter i target).2 with
    entered := (σ.registries.enter i target).1 :: σ.entered }

/-- The situation after the redirection at a place was ended. -/
def ended (σ : Situation) (place : Nat) : Situation :=
  match σ.entered[place]? with
  | none => σ
  | some redirection =>
    { σ.withRegistries (σ.registries.leave redirection) with entered := σ.entered.eraseIdx place }

/-- The situation after a step. -/
def next (σ : Situation) : Step → Situation
  | .call i call => σ.called i call
  | .enter i target => σ.redirected i target
  | .leave place => σ.ended place

/-- The situation after some steps. -/
def after (σ : Situation) (steps : List Step) : Situation := steps.foldl next σ

end Situation

variable {rs : Registries} {w : World} {σ : Situation}

/-- All registries are keyed. -/
def AllKeyed (rs : Registries) : Prop := ∀ i, (rs.get i).Keyed

/-- Registries stay keyed when one of them is replaced by a keyed one. -/
theorem AllKeyed.set (h : rs.AllKeyed) (i : RegistryId) {r : Registry} (hr : r.Keyed) :
    (rs.set i r).AllKeyed := by
  intro j
  rw [get_set]
  split
  · exact hr
  · exact h j

/-- An addition keeps registries keyed, wherever it goes. -/
theorem AllKeyed.after_add (h : w.registries.AllKeyed) (i : RegistryId) (e : Entry) :
    (w.after (Shell.add i e)).registries.AllKeyed := by
  unfold Shell.add Registries.add?
  rw [World.after_bind_ok (EStateM.run_get w)]
  cases w.registries.target? i with
  | none => exact h -- The redirections go in a circle.
  | some j => exact h.set j ((h j).add e)

/-- **A call** on a registry keeps all of them keyed. -/
theorem AllKeyed.after_perform (h : w.registries.AllKeyed) (i : RegistryId) (call : Registry.Call) :
    (w.after (call.perform i)).registries.AllKeyed := by
  cases call with
  | register d handler =>
    have hnumber : (w.numbering (d.entry handler)).registries.AllKeyed := h
    show (w.after (Shell.register i (d.entry handler))).registries.AllKeyed
    rw [World.after_register]
    exact hnumber.after_add i _
  | add e => exact h.after_add i e
  | unregister name => exact h.set i ((h i).unregister name)

/-- **A step** keeps registries keyed. -/
theorem AllKeyed.next (h : σ.registries.AllKeyed) (step : Step) : (σ.next step).registries.AllKeyed := by
  cases step with
  | call i call => exact h.after_perform i call
  | enter i target =>
    intro j
    exact (get_enter σ.registries i target j).symm ▸ h j
  | leave place =>
    show (σ.ended place).registries.AllKeyed
    unfold Situation.ended
    split
    · exact h
    · rename_i redirection _
      intro j
      exact (get_leave σ.registries redirection j).symm ▸ h j

/-- Registries stay keyed through any steps. -/
theorem AllKeyed.after (h : σ.registries.AllKeyed) (steps : List Step) :
    (σ.after steps).registries.AllKeyed := by
  induction steps generalizing σ with
  | nil => exact h
  | cons step steps ih => exact ih (h.next step)

/-- At the start all registries are empty, and so keyed. -/
theorem allKeyed_start (w : World) : (Situation.start w).registries.AllKeyed :=
  fun _ => Registry.keyed_empty

/-- **Whatever is done with registries**, each of them is listed as it is looked up: in strictly ascending
order of the names, and with just the entries that are found by their names. -/
theorem listed_after (w : World) (steps : List Step) (i : RegistryId) :
    (((Situation.start w).after steps).registries.get i).ListedAsFound :=
  ((allKeyed_start w).after steps i).listedAsFound

end Registries

end CommandShell
