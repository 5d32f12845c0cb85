import CommandShell.Proofs.Loader.Search

/-! # Modules are imported at most once

An **import** executes the file of a module in some world (`Loader.Import`). It is completed if the module
succeeds or fails in an ordinary way, and only then the module is marked; any other fault escapes. A call
on a loader imports, in order, the modules that are **due**: those that it asks for and that are not marked
(`Loader.Call.due`, `Loader.Imports`). In a run of calls everything but the loader may change between them
(`Loader.Run`), and still no name is imported again after a completed import, and the marks tell which
imports were completed (`Loader.completed_at_most_once`). -/

namespace CommandShell

namespace Loader

open World

/-! ## Imports -/

/-- An import: the name and the file of the module, and the world that it is imported in. -/
structure Import where
  /-- The normal name of the module. -/
  key : String
  /-- Its initial file. -/
  file : Path
  /-- The world. -/
  world : World

namespace Import

variable (i : Import)

/-- The world that the file is executed in: what it registers goes to the registry of the loader. -/
def entered : World :=
  { i.world with registries := (i.world.registries.enter moduleRegistry i.world.loader.registry).2 }

/-- The fault that escapes from the import, if the module does not succeed or fail in an ordinary way. -/
def escape? : Option Fault :=
  match i.entered.outcome (executeFile i.file) with
  | .ok _ => none
  | .error f => if f.isOrdinary then none else some f

/-- Whether the import is completed. -/
def completes : Bool := i.escape?.isNone

/-- Whether the import succeeds. -/
def succeeds : Bool := (i.entered.outcome (executeFile i.file)).toOption.isSome

/-- The world that the file leaves. -/
def left : World :=
  i.world.after (Shell.redirected moduleRegistry i.world.loader.registry (importFile i.file))

/-- The world after the import: a completed import is marked. -/
def after : World :=
  if i.completes then
    { i.left with loader := { i.left.loader with attempted := i.left.loader.attempted ++ [i.key] } }
  else i.left

end Import

/-- Some modules are imported from one world to another, in order, with reports between them. The first
fault that escapes from an import ends this. -/
inductive Imports : World → List (String × Path) → List Import → Except Fault Unit → World → Prop
  | done {w w' : World} (last : w.OnlyReports w') : Imports w [] [] (.ok ()) w'
  | completed {w w' : World} {i : Import} {fs : List (String × Path)} {is : List Import}
      {r : Except Fault Unit} (first : w.OnlyReports i.world) (h : i.escape? = none)
      (rest : Imports i.after fs is r w') : Imports w ((i.key, i.file) :: fs) (i :: is) r w'
  | escaped {w : World} {i : Import} {fs : List (String × Path)} {f : Fault}
      (first : w.OnlyReports i.world) (h : i.escape? = some f) :
      Imports w ((i.key, i.file) :: fs) [i] (.error f) i.after

/-! ## Marks -/

/-- Importing a file leaves the loader. -/
theorem importing_loader : Shell.Frame.Importing fun w w' : World => w'.loader = w.loader where
  refl _ := rfl
  trans h h' := h'.trans h
  emitted _ _ := rfl
  registries _ _ := rfl
  imports _ _ := rfl

/-- The file is executed with the redirection entered, and then the redirection is left. -/
theorem Import.left_eq (i : Import) :
    let v := i.entered.after (executeFile i.file)
    i.left = { v with registries :=
      v.registries.leave (i.world.registries.enter moduleRegistry i.world.loader.registry).1 } := by
  intro v
  have hexecute : i.entered.after (importFile i.file) = v := Shell.after_recover _ _ _ _ _
  rw [← hexecute]
  exact World.after_redirected _ _ _ _

/-- An import adds its name to the marks if it is completed, and leaves them as they are if not. -/
theorem Import.attempted_after (i : Import) : i.after.loader.attempted
    = if i.completes then i.world.loader.attempted ++ [i.key] else i.world.loader.attempted := by
  have hloader : i.left.loader = i.world.loader :=
    importing_loader.within_redirected (importing_loader.within_importFile i.file) _ _ i.world
  unfold Import.after
  split
  · rw [hloader]
  · rw [hloader]

namespace Imports

variable {w v w' : World} {fs : List (String × Path)} {is : List Import} {r : Except Fault Unit}

/-- Reports may stand in front of the first import. -/
theorem of_reports (h : w.OnlyReports v) (hi : Imports v fs is r w') : Imports w fs is r w' := by
  have hR := logging_onlyReports
  cases hi with
  | done last => exact .done (hR.trans h last)
  | completed first hnone rest => exact .completed (hR.trans h first) hnone rest
  | escaped first hsome => exact .escaped (hR.trans h first) hsome

/-- The modules are imported in order. -/
theorem keys_prefix (h : Imports w fs is r w') : is.map Import.key <+: fs.map Prod.fst := by
  induction h with
  | done last => exact List.nil_prefix
  | completed first hnone rest ih => exact List.cons_prefix_cons.mpr ⟨rfl, ih⟩
  | escaped first hsome => exact List.cons_prefix_cons.mpr ⟨rfl, List.nil_prefix⟩

/-- If no fault escapes, all modules are imported. -/
theorem map_eq_of_ok (h : Imports w fs is r w') (hr : r = .ok ()) :
    is.map (fun i => (i.key, i.file)) = fs := by
  induction h with
  | done last => rfl
  | completed first hnone rest ih => rw [List.map_cons, ih hr]
  | escaped first hsome => cases hr

/-- **The marks grow** by the completed imports. -/
theorem attempted (h : Imports w fs is r w') : w'.loader.attempted
    = w.loader.attempted ++ (is.filter Import.completes).map Import.key := by
  induction h with
  | done last => rw [last.loader, List.filter_nil, List.map_nil, List.append_nil]
  | completed first hnone rest ih =>
    rename_i i _ _ _
    have hcompletes : i.completes = true := by rw [Import.completes, hnone]; rfl
    rw [ih, i.attempted_after, if_pos hcompletes, first.loader, List.filter_cons_of_pos hcompletes,
      List.map_cons, List.append_assoc]
    rfl
  | escaped first hsome =>
    rename_i i _ _
    have hcompletes : i.completes = false := by rw [Import.completes, hsome]; rfl
    rw [i.attempted_after, hcompletes, first.loader, List.filter_cons_of_neg (by rw [hcompletes]; simp)]
    simp

/-- What ends the imports has escaped from one of them, so it is not ordinary. -/
theorem isOrdinary_eq_false {f : Fault} (h : Imports w fs is r w') (hr : r = .error f) :
    f.isOrdinary = false := by
  induction h with
  | done last => exact nomatch hr
  | completed first hnone rest ih => exact ih hr
  | escaped first hsome =>
    cases hr
    unfold Import.escape? at hsome
    split at hsome
    · exact nomatch hsome
    · split at hsome
      · exact nomatch hsome
      · rename_i hescapes
        cases hsome
        exact Bool.eq_false_iff.mpr hescapes

end Imports

/-! ## One import -/

/-- Forgetting the value of an outcome that has none changes nothing. -/
theorem map_unit (r : Except Fault Unit) : (r.map fun _ => ()) = r := by
  cases r with
  | ok x => rfl
  | error f => rfl

/-- An action imports some modules. -/
def Serves {α : Type} (w : World) (fs : List (String × Path)) (a : Shell α) : Prop :=
  ∃ is, Imports w fs is ((w.outcome a).map fun _ => ()) (w.after a)

/-- An action imports some modules, and what it gives, if anything, fits the imports. -/
def ServesWith {α : Type} (P : List Import → α → Prop) (w : World) (fs : List (String × Path))
    (a : Shell α) : Prop :=
  ∃ is, Imports w fs is ((w.outcome a).map fun _ => ()) (w.after a) ∧ ∀ x, w.outcome a = .ok x → P is x

section

variable {α β : Type} {P : List Import → α → Prop} {Q : List Import → β → Prop} {w v : World}
  {fs : List (String × Path)} {a : Shell α}

/-- What gives something that fits the imports makes these imports. -/
theorem ServesWith.serves (h : ServesWith P w fs a) : Serves w fs a := by
  obtain ⟨is, himports, -⟩ := h
  exact ⟨is, himports⟩

/-- An action that only reports imports nothing. -/
theorem servesWith_of_reports {x : α} (hrun : a.run w = .ok x v) (h : w.OnlyReports v) (hx : P [] x) :
    ServesWith P w [] a := by
  refine ⟨[], ?_⟩
  rw [outcome_of_ok hrun, after_of_ok hrun]
  refine ⟨.done h, fun y hy => ?_⟩
  cases hy
  exact hx

/-- Reports in front of an action do not bear on its imports. -/
theorem ServesWith.after_reports {x : α} (hrun : a.run w = .ok x v) (h : w.OnlyReports v)
    {g : α → Shell β} (hg : ServesWith Q v fs (g x)) : ServesWith Q w fs (a >>= g) := by
  obtain ⟨is, himports, hfits⟩ := hg
  refine ⟨is, ?_⟩
  rw [outcome_bind_ok hrun, after_bind_ok hrun]
  exact ⟨himports.of_reports h, hfits⟩

/-- What is computed from what an action gives makes no further imports. -/
theorem ServesWith.bind_pure (h : ServesWith P w fs a) {g : α → β} (hg : ∀ is x, P is x → Q is (g x)) :
    ServesWith Q w fs (a >>= fun x => pure (g x)) := by
  obtain ⟨is, himports, hfits⟩ := h
  refine ⟨is, ?_⟩
  rw [outcome_bind_pure, after_bind_pure]
  cases hend : w.outcome a with
  | ok x =>
    rw [hend] at himports
    refine ⟨himports, fun y hy => ?_⟩
    cases hy
    exact hg is x (hfits x hend)
  | error f =>
    rw [hend] at himports
    exact ⟨himports, fun y hy => by cases hy⟩

end

namespace Import

variable {i : Import} {f : Fault}

/-- Importing the file gives something, which is no report exactly if it succeeds, or it ends with the
fault that escapes. -/
theorem importFile_cases (i : Import) :
    (∃ failure v, i.escape? = none ∧ (importFile i.file).run i.entered = .ok failure v ∧
        failure.isNone = i.succeeds) ∨
      ∃ f v, i.escape? = some f ∧ (importFile i.file).run i.entered = .error f v := by
  unfold escape? succeeds importFile
  cases hrun : (executeFile i.file).run i.entered with
  | ok _ v =>
    have hbody : (executeFile i.file >>= fun _ => pure none : Shell (Option String)).run i.entered
        = .ok none v := Shell.run_bind_ok hrun _
    rw [outcome_of_ok hrun, Shell.run_recover_ok hbody]
    exact .inl ⟨none, v, rfl, rfl, rfl⟩
  | error f v =>
    rw [outcome_of_error hrun, Shell.run_recover_error (Shell.run_bind_error hrun _)]
    dsimp only
    split
    · exact .inl ⟨some (importMessage f), v, rfl, rfl, rfl⟩
    · exact .inr ⟨f, v, rfl, rfl⟩

/-- Nothing escapes from an import whose faults are all ordinary. -/
theorem escape?_eq_none (i : Import)
    (h : ∀ f v, (executeFile i.file).run i.entered = .error f v → f.isOrdinary = true) :
    i.escape? = none := by
  unfold escape?
  cases hrun : (executeFile i.file).run i.entered with
  | ok _ v => rw [outcome_of_ok hrun]
  | error f v =>
    rw [outcome_of_error hrun]
    exact if_pos (h f v hrun)

/-- **A completed import** tells whether it succeeds and marks the module; then it is reported. -/
theorem run_importModule_of_completes (h : i.escape? = none) :
    ∃ v, (importModule i.key i.file).run i.world = .ok i.succeeds v ∧ i.after.OnlyReports v := by
  obtain ⟨failure, v, -, hrun, hsucceeds⟩ | ⟨f, v, hsome, -⟩ := i.importFile_cases
  · have hredirected := Shell.run_redirected_ok moduleRegistry i.world.loader.registry hrun
    have hafter : i.after = { i.left with loader :=
        { i.left.loader with attempted := i.left.loader.attempted ++ [i.key] } } := by
      rw [after, completes, h]
      rfl
    have hreport (level : Level) (message : String) (b : Bool) :
        ∃ u, (Shell.log level .loader message >>= fun _ => pure b : Shell Bool).run i.after = .ok b u ∧
          i.after.OnlyReports u :=
      ⟨_, Shell.run_bind_ok (Shell.run_log _ _ _ _) _,
        _, fun e he => World.isReport_of_mem_reports he, rfl⟩
    rw [hafter, left, after_of_ok hredirected] at hreport ⊢
    rw [← hsucceeds]
    cases failure with
    | some message =>
      obtain ⟨u, hlog, hu⟩ := hreport .warning
        ("Failed to load command '" ++ i.file.parent.name ++ "': " ++ message) false
      exact ⟨u, (Shell.run_bind_ok hredirected _).trans hlog, hu⟩
    | none =>
      obtain ⟨u, hlog, hu⟩ := hreport .debug ("Loaded command module " ++ i.file.toString) true
      exact ⟨u, (Shell.run_bind_ok hredirected _).trans hlog, hu⟩
  · rw [h] at hsome
    exact nomatch hsome

/-- **An import that is not completed** ends with the fault that escapes, and marks nothing. -/
theorem run_importModule_of_escapes (h : i.escape? = some f) :
    (importModule i.key i.file).run i.world = .error f i.after := by
  obtain ⟨failure, v, hnone, -, -⟩ | ⟨f', v, hsome, hrun⟩ := i.importFile_cases
  · rw [h] at hnone
    exact nomatch hnone
  · obtain rfl : f = f' := Option.some.inj (h.symm.trans hsome)
    have hredirected := Shell.run_redirected_error moduleRegistry i.world.loader.registry hrun
    have hafter : i.after = i.left := by
      rw [after, completes, h]
      rfl
    rw [hafter, left, after_of_error hredirected]
    exact Shell.run_bind_error hredirected _

end Import

/-- A module is imported, and if that is completed, the others are. -/
theorem servesWith_importModule {β : Type} {P : List Import → β → Prop} {w : World} {key : String}
    {file : Path} {fs : List (String × Path)} {g : Bool → Shell β}
    (hg : ∀ v, v.loader.attempted = w.loader.attempted ++ [key] →
      ServesWith (fun is => P (⟨key, file, w⟩ :: is)) v fs (g (Import.mk key file w).succeeds)) :
    ServesWith P w ((key, file) :: fs) (importModule key file >>= g) := by
  let i : Import := ⟨key, file, w⟩
  have hself : w.OnlyReports i.world := logging_onlyReports.refl w
  cases hescape : i.escape? with
  | some f =>
    have hrun : (importModule key file >>= g).run w = .error f i.after :=
      Shell.run_bind_error (i.run_importModule_of_escapes hescape) g
    refine ⟨[i], ?_⟩
    rw [outcome_of_error hrun, after_of_error hrun]
    exact ⟨.escaped hself hescape, fun x hx => by cases hx⟩
  | none =>
    obtain ⟨v, hrun, hv⟩ := i.run_importModule_of_completes hescape
    have hattempted : v.loader.attempted = w.loader.attempted ++ [key] := by
      rw [hv.loader, i.attempted_after, Import.completes, hescape]
      rfl
    obtain ⟨is, himports, hfits⟩ := hg v hattempted
    refine ⟨i :: is, ?_⟩
    rw [outcome_bind_ok hrun, after_bind_ok hrun]
    exact ⟨.completed hself hescape (himports.of_reports hv), hfits⟩

/-! ## Calls -/

/-- A call on a loader. -/
inductive Call
  | load (name : String)
  | loadAll (verbose : Bool)

namespace Call

/-- What a call does. -/
def perform : Call → Shell Unit
  | load name => Loader.load name
  | loadAll verbose => do
    let _ ← Loader.loadAll verbose

/-- Which of the modules that are found a call asks for: the one of the name, or all. -/
def select (t : Table String Path) : Call → List (String × Path)
  | load name => (t.get? (normalName name)).toList.map fun file => (normalName name, file)
  | loadAll _ => t.toList

/-- The modules that a call asks for, if the search ends well. -/
def asked (w : World) (c : Call) : Except Fault (List (String × Path)) :=
  (w.outcome index).map fun t => c.select t

/-- The modules that a call is to import: those that it asks for and that are not marked. A marked name
is not even searched for. -/
def due (w : World) : Call → Except Fault (List (String × Path))
  | load name => if normalName name ∈ w.loader.attempted then .ok [] else (load name).asked w
  | loadAll verbose =>
    ((loadAll verbose).asked w).map fun fs => fs.filter fun f => f.1 ∉ w.loader.attempted

end Call

/-- The search gives each name once, or ends with a fault; either way it only reports. -/
theorem index_cases (w : World) :
    (∃ t v, index.run w = .ok t v ∧ w.OnlyReports v ∧ t.keys.Nodup) ∨
      ∃ f v, index.run w = .error f v ∧ w.OnlyReports v := by
  have hreports := (heeds_index logging_onlyReports).within
  cases hrun : index.run w with
  | ok t v => exact .inl ⟨t, v, rfl, hreports.of_ok hrun, nodup_index hrun⟩
  | error f v => exact .inr ⟨f, v, rfl, hreports.of_error hrun⟩

/-- What comes of a call: it imports what is due, which is new, or its search fails and it imports
nothing. -/
inductive Call.Ends (w : World) (c : Call) : Prop
  | serves {fs : List (String × Path)} (due : c.due w = .ok fs) (nodup : (fs.map Prod.fst).Nodup)
      (unmarked : ∀ f ∈ fs, f.1 ∉ w.loader.attempted) (h : Serves w fs c.perform)
  | unsearchable {f : Fault} {v : World} (due : c.due w = .error f)
      (hrun : c.perform.run w = .error f v) (h : w.OnlyReports v)

/-- A name that is not marked is searched for, and its module is imported. -/
theorem Call.ends_load_of_unmarked {name : String} {w : World}
    (hnew : normalName name ∉ w.loader.attempted) : (load name).Ends w := by
  have hself := logging_onlyReports.refl w
  have hdue : (load name).due w = (load name).asked w := if_neg hnew
  have hstart : ¬ w.loader.attempted.contains (normalName name) = true :=
    mt List.contains_iff_mem.mp hnew
  obtain ⟨t, v, hrun, hv, -⟩ | ⟨f, v, hrun, hv⟩ := index_cases w
  · have hasked : (load name).asked w = .ok ((load name).select t) := by
      rw [asked, outcome_of_ok hrun]
      rfl
    dsimp only [select] at hasked
    cases hfile : t.get? (normalName name) with
    | none =>
      rw [hfile] at hasked
      refine .serves (hdue.trans hasked) List.nodup_nil (by simp)
        (ServesWith.after_reports (Q := fun _ _ => True) (EStateM.run_get w) hself ?_).serves
      rw [if_neg hstart]
      have hlog := Shell.run_log .debug .loader ("No command module for " ++ Text.quoted name) v
      refine .after_reports hrun hv ?_
      rw [hfile]
      exact servesWith_of_reports hlog ((logging_onlyReports.heeds_log _ _ _).within.of_ok hlog) trivial
    | some file =>
      rw [hfile] at hasked
      refine .serves (hdue.trans hasked) (by simp) (by simpa using hnew)
        (ServesWith.after_reports (Q := fun _ _ => True) (EStateM.run_get w) hself ?_).serves
      rw [if_neg hstart]
      refine .after_reports hrun hv ?_
      rw [hfile]
      exact servesWith_importModule fun u _ =>
        servesWith_of_reports rfl (logging_onlyReports.refl u) trivial
  · -- The search itself may fail, and then nothing is due.
    have hasked : (load name).asked w = .error f := by
      rw [asked, outcome_of_error hrun]
      rfl
    have hload : (Loader.load name).run w = .error f v := by
      unfold Loader.load
      rw [Shell.run_bind_ok (EStateM.run_get w), if_neg hstart]
      exact Shell.run_bind_error hrun _
    exact .unsearchable (hdue.trans hasked) hload hv

/-- A marked name is left alone. -/
theorem run_load_of_marked {name : String} {w : World} (h : normalName name ∈ w.loader.attempted) :
    (Loader.load name).run w = .ok () w := by
  unfold Loader.load
  rw [Shell.run_bind_ok (EStateM.run_get w), if_pos (List.contains_iff_mem.mpr h)]
  rfl

/-- Loading one name imports its module, if it is found and not marked. -/
theorem Call.ends_load (name : String) (w : World) : (load name).Ends w := by
  by_cases hmarked : normalName name ∈ w.loader.attempted
  · exact .serves (if_pos hmarked) List.nodup_nil (by simp)
      (servesWith_of_reports (P := fun _ _ => True) (run_load_of_marked hmarked)
        (logging_onlyReports.refl w) trivial).serves
  · exact ends_load_of_unmarked hmarked

/-- What a loop over modules gives counts the imports that succeed. -/
def Counts (is : List Import) (n : Nat) : Prop := n = is.countP Import.succeeds

/-- **The modules that were found** are imported unless they are marked, and the successes are counted. -/
theorem servesWith_loadFound (verbose : Bool) {w : World} {fs : List (String × Path)}
    (hfs : (fs.map Prod.fst).Nodup) :
    ServesWith Counts w (fs.filter fun f => f.1 ∉ w.loader.attempted) (loadFound verbose fs) := by
  induction fs generalizing w with
  | nil => exact servesWith_of_reports rfl (logging_onlyReports.refl w) rfl
  | cons f fs ih =>
    obtain ⟨key, file⟩ := f
    obtain ⟨hkey, hrest⟩ := List.nodup_cons.mp hfs
    refine .after_reports (EStateM.run_get w) (logging_onlyReports.refl w) ?_
    split
    · rename_i hmarked
      rw [List.filter_cons_of_neg (by simpa using hmarked)]
      exact ih hrest
    · rename_i hnew
      rw [List.filter_cons_of_pos (by simpa using hnew)]
      refine servesWith_importModule fun v hv => ?_
      -- The new mark is none of the others.
      have hsame : fs.filter (fun f => f.1 ∉ v.loader.attempted)
          = fs.filter fun f => f.1 ∉ w.loader.attempted := by
        refine List.filter_congr fun f hf => ?_
        have hne : f.1 ≠ key := fun h => hkey (List.mem_map.mpr ⟨f, hf, h⟩)
        simp [hv, hne]
      rw [← hsame]
      have hmore (u : World) (hu : u.loader = v.loader) : ServesWith
          (fun is => Counts (⟨key, file, w⟩ :: is)) u (fs.filter fun f => f.1 ∉ v.loader.attempted)
          (loadFound verbose fs >>= fun more =>
            pure (if (Import.mk key file w).succeeds then more + 1 else more)) := by
        have hfound := ih (w := u) hrest
        rw [hu] at hfound
        refine hfound.bind_pure fun is n hn => ?_
        rw [Counts, List.countP_cons, hn]
        split
        · rfl
        · rfl
      dsimp only
      split
      · have hreports := (logging_onlyReports.heeds_log .info .loader ("Loaded command: " ++ key)).within
        exact .after_reports (Shell.run_log _ _ _ v) (hreports.of_ok (Shell.run_log _ _ _ v))
          (hmore _ rfl)
      · exact hmore v rfl

/-- **All modules** that are found are imported unless they are marked, and the successes are counted. -/
theorem servesWith_loadAll (verbose : Bool) {w v : World} {t : Table String Path}
    (hrun : index.run w = .ok t v) : ServesWith Counts w
      (t.toList.filter fun f => f.1 ∉ w.loader.attempted) (Loader.loadAll verbose) := by
  have hv : w.OnlyReports v := (heeds_index logging_onlyReports).within.of_ok hrun
  have hfound := servesWith_loadFound verbose (w := v) (nodup_index hrun)
  rw [hv.loader] at hfound
  exact .after_reports hrun hv hfound

/-- Loading all modules imports those that are found and not marked. -/
theorem Call.ends_loadAll (verbose : Bool) (w : World) : (loadAll verbose).Ends w := by
  obtain ⟨t, v, hrun, hv, hnodup⟩ | ⟨f, v, hrun, hv⟩ := index_cases w
  · have hdue : (loadAll verbose).due w
        = .ok (t.toList.filter fun f => f.1 ∉ w.loader.attempted) := by
      rw [due, asked, outcome_of_ok hrun]
      rfl
    refine .serves hdue (hnodup.sublist (List.filter_sublist.map Prod.fst)) (fun f hf => ?_) ?_
    · simpa using (List.mem_filter.mp hf).2
    · exact ((servesWith_loadAll verbose hrun).bind_pure (Q := fun _ _ => True) fun _ _ _ => trivial).serves
  · have hdue : (loadAll verbose).due w = .error f := by
      rw [due, asked, outcome_of_error hrun]
      rfl
    have hall : (Loader.loadAll verbose).run w = .error f v := Shell.run_bind_error hrun _
    exact .unsearchable hdue (Shell.run_bind_error hall _) hv

/-- **What comes of a call**: it imports what is due, or its search fails. -/
theorem Call.ends (w : World) : (c : Call) → c.Ends w
  | load name => ends_load name w
  | loadAll verbose => ends_loadAll verbose w

/-- What is due has different names, and none of them is marked. -/
theorem Call.due_new {w : World} {c : Call} {fs : List (String × Path)} (h : c.due w = .ok fs) :
    (fs.map Prod.fst).Nodup ∧ ∀ f ∈ fs, f.1 ∉ w.loader.attempted := by
  cases c.ends w with
  | serves due nodup unmarked _ =>
    cases due.symm.trans h
    exact ⟨nodup, unmarked⟩
  | unsearchable due _ _ => exact nomatch due.symm.trans h

/-- A call ends with the fault of its search, or with one that is not ordinary. -/
theorem Call.fault_cases {w : World} {c : Call} {f : Fault} (h : w.outcome c.perform = .error f) :
    c.due w = .error f ∨ f.isOrdinary = false := by
  cases c.ends w with
  | serves _ _ _ himports =>
    obtain ⟨is, himports⟩ := himports
    exact .inr (himports.isOrdinary_eq_false (by rw [h]; rfl))
  | unsearchable due hrun _ =>
    rw [outcome_of_error hrun] at h
    cases h
    exact .inl due

/-! ## Runs -/

/-- A call on a loader, or a change of anything but the loader. -/
inductive Move
  | call (c : Call)
  | change (v : World)

/-- What a move does. -/
def Move.perform : Move → Shell Unit
  | call c => c.perform
  | change v => modify fun w => { v with loader := w.loader }

/-- What some moves import, from one world to another. Faults are caught between them. -/
inductive Run : World → List Move → List Import → World → Prop
  | nil (w : World) : Run w [] [] w
  | change {w v w' : World} {moves : List Move} {is : List Import}
      (rest : Run { v with loader := w.loader } moves is w') : Run w (.change v :: moves) is w'
  | unsearchable {w w' : World} {c : Call} {f : Fault} {moves : List Move} {is : List Import}
      (due : c.due w = .error f) (fails : w.outcome c.perform = .error f)
      (reports : w.OnlyReports (w.after c.perform)) (rest : Run (w.after c.perform) moves is w') :
      Run w (.call c :: moves) is w'
  | call {w w' : World} {c : Call} {fs : List (String × Path)} {moves : List Move}
      {is js : List Import} (due : c.due w = .ok fs)
      (imports : Imports w fs is (w.outcome c.perform) (w.after c.perform))
      (rest : Run (w.after c.perform) moves js w') : Run w (.call c :: moves) (is ++ js) w'

end Loader

/-- The world after some moves. -/
def World.afterMoves (w : World) (moves : List Loader.Move) : World :=
  moves.foldl (fun w m => w.after m.perform) w

/-- Moves are made one after the other. -/
@[simp] theorem World.afterMoves_cons (w : World) (m : Loader.Move) (moves : List Loader.Move) :
    w.afterMoves (m :: moves) = (w.after m.perform).afterMoves moves := rfl

namespace Loader

open World

/-- All moves make some imports, in the world that each of them is met in. -/
theorem exists_run (moves : List Move) (w : World) : ∃ is, Run w moves is (w.afterMoves moves) := by
  induction moves generalizing w with
  | nil => exact ⟨[], .nil w⟩
  | cons m moves ih =>
    rw [afterMoves_cons]
    obtain ⟨js, hrest⟩ := ih (w.after m.perform)
    cases m with
    | change v => exact ⟨js, .change hrest⟩
    | call c =>
      cases c.ends w with
      | serves due _ _ h =>
        obtain ⟨is, himports⟩ := h
        rw [map_unit] at himports
        exact ⟨is ++ js, .call due himports hrest⟩
      | unsearchable due hrun h =>
        have hafter := after_of_error hrun
        rw [← hafter] at h
        exact ⟨js, .unsearchable due (outcome_of_error hrun) h hrest⟩

namespace Run

variable {w w' : World} {moves : List Move} {is : List Import}

/-- **The marks tell which imports were completed.** -/
theorem attempted (h : Run w moves is w') : w'.loader.attempted
    = w.loader.attempted ++ (is.filter Import.completes).map Import.key := by
  induction h with
  | nil w => simp
  | change rest ih => exact ih
  | unsearchable due fails reports rest ih => rw [ih, reports.loader]
  | call due imports rest ih =>
    rw [ih, imports.attempted, List.filter_append, List.map_append, List.append_assoc]

/-- What is marked is not imported, and no name is imported after a completed import of it. -/
theorem once (h : Run w moves is w') : (∀ i ∈ is, i.key ∉ w.loader.attempted) ∧
    is.Pairwise fun i j => i.completes = true → j.key ≠ i.key := by
  induction h with
  | nil w => exact ⟨by simp, .nil⟩
  | change rest ih => exact ih
  | unsearchable due fails reports rest ih => rwa [reports.loader] at ih
  | call due imports rest ih =>
    rename_i w _ _ fs _ is js
    -- What is imported later is not among the marks that this call leaves.
    obtain ⟨hlater, hjs⟩ := ih
    rw [imports.attempted] at hlater
    obtain ⟨hnodup, hnew⟩ := Call.due_new due
    have hkeys := imports.keys_prefix
    have hfirst : ∀ i ∈ is, i.key ∉ w.loader.attempted := by
      intro i hi
      obtain ⟨f, hf, hkey⟩ := List.mem_map.mp (hkeys.subset (List.mem_map_of_mem hi))
      rw [← hkey]
      exact hnew f hf
    have his : is.Pairwise fun i j => i.completes = true → j.key ≠ i.key :=
      (List.pairwise_map.mp (hnodup.sublist hkeys.sublist)).imp fun hne _ => hne.symm
    refine ⟨List.forall_mem_append.mpr ⟨hfirst, fun j hj hmarked => ?_⟩,
      List.pairwise_append.mpr ⟨his, hjs, fun i hi j hj hcompletes hkey => ?_⟩⟩
    · exact hlater j hj (List.mem_append_left _ hmarked)
    · apply hlater j hj
      rw [hkey]
      exact List.mem_append_right _ (List.mem_map_of_mem (List.mem_filter.mpr ⟨hi, hcompletes⟩))

end Run

/-- **A module is imported to completion at most once.** A loader starts without marks, and it is called
while anything else may change between the calls. Then no name is imported again after a completed import,
a name is loaded if and only if there was a completed import of it, and a name that is not loaded may be
tried again: what is found under it is due. The faults of a call are those of its search and those of
modules that are not ordinary. -/
theorem completed_at_most_once (w : World) (directories : List Path) (registry : RegistryId)
    (moves : List Move) :
    let start := { w with loader := ofDirectories directories registry }
    let last := start.afterMoves moves
    ∃ is, Run start moves is last ∧
      is.Pairwise (fun i j => i.completes = true → j.key ≠ i.key) ∧
      (∀ name, last.outcome (isLoaded name)
        = .ok (is.any fun i => i.completes && i.key == normalName name)) ∧
      (∀ name, (∀ i ∈ is, i.completes = true → i.key ≠ normalName name) →
        (Call.load name).due last = (Call.load name).asked last) ∧
      ∀ (c : Call) f, last.outcome c.perform = .error f → c.due last = .error f ∨ f.isOrdinary = false := by
  intro start last
  obtain ⟨is, hrun⟩ := exists_run moves start
  have hattempted : last.loader.attempted = (is.filter Import.completes).map Import.key :=
    hrun.attempted
  have hmarked (name : String) : normalName name ∈ last.loader.attempted ↔
      ∃ i ∈ is, i.completes = true ∧ i.key = normalName name := by
    simp [hattempted, and_assoc]
  refine ⟨is, hrun, hrun.once.2, fun name => ?_, fun name hname => if_neg ?_,
    fun c f => Call.fault_cases⟩
  · have hanswer : last.outcome (isLoaded name)
        = .ok (last.loader.attempted.contains (normalName name)) := rfl
    rw [hanswer]
    congr 1
    rw [Bool.eq_iff_iff, List.contains_iff_mem, hmarked]
    simp
  · rw [hmarked]
    rintro ⟨i, hi, hcompletes, hkey⟩
    exact hname i hi hcompletes hkey

end Loader

end CommandShell
