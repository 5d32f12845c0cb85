import CommandShell.Loader
import CommandShell.Proofs.Shell.Routine

/-! # Loading is routine

Looking for modules, registering, importing and loading are routine actions, whatever the modules are and
however their import ends. If the world is known to be ordinary, the modules in its files are, and so
nothing escapes from an import (`routine_importFile`). -/

namespace CommandShell

open Shell

variable {α β : Type} {K : Prop} {Own : Shell Unit → Prop}

/-! ## Looking for modules -/

/-- Making a path absolute is routine. -/
theorem routine_absolutePath (path : Path) : Routine K Own (absolutePath path) := by
  refine .look (fun _ _ => rfl) fun w _ => ?_
  split
  · exact .pure _
  · exact .pure _

/-- Looking for the initial file at a path is routine. -/
theorem routine_initialFileAt (path : Path) : Routine K Own (initialFileAt path) := by
  refine .bind (Files.routine_ask path _) fun isDirectory => ?_
  split
  · exact .pure _
  · split
    · exact .pure _
    · refine .bind (Files.routine_ask _ _) fun there => ?_
      split
      · exact .pure _
      · exact .bind (.log _ _ _) fun _ => .pure _

/-- Looking for initial files is routine. -/
theorem routine_initialFiles (paths : List Path) : Routine K Own (initialFiles paths) := by
  induction paths with
  | nil => exact .pure _
  | cons path rest ih =>
    exact .bind (routine_initialFileAt path) fun _ => .bind ih fun _ => .pure _

/-- Searching a directory is routine. -/
theorem routine_discover (directory : Path) : Routine K Own (discover directory) := by
  refine .bind (Files.routine_ask _ _) fun there => ?_
  split
  · exact .pure _
  · refine .bind (Files.routine_ask _ _) fun isDirectory => ?_
    split
    · exact .bind (.log _ _ _) fun _ => .pure _
    · exact .bind (Files.routine_list _) fun paths => routine_initialFiles paths

/-- Searching all directories is routine. -/
theorem Loader.routine_index : Routine K Own Loader.index :=
  .look (fun _ _ => rfl) fun _ _ => .bind (.mapM fun d _ => routine_discover d) fun _ => .pure _

/-- Listing the modules is routine. -/
theorem Loader.routine_available : Routine K Own Loader.available :=
  .bind Loader.routine_index fun _ => .pure _

/-! ## Registering -/

/-- What is done with the answer of a look-up may rely on it standing in a registry. -/
theorem Shell.routine_lookup_bind {i : RegistryId} {name : String} {g : Option Entry → Shell β}
    (hg : ∀ e?, (K → ∀ e ∈ e?, e.handler.isOrdinary = true) → Routine K Own (g e?)) :
    Routine K Own (lookup i name >>= g) := by
  unfold lookup
  rw [bind_assoc]
  refine .look (fun _ _ => rfl) fun w hw => ?_
  cases hfind : (w.registries.get i).find name with
  | ok e? =>
    show Routine K Own (pure e? >>= g)
    rw [pure_bind]
    refine hg e? fun hK e he => ?_
    rw [Option.mem_def.mp he] at hfind
    exact (hw hK).registries.find hfind
  | error target =>
    show Routine K Own (throw (.danglingAlias target))
    exact .throw fun _ => rfl

/-- Registries may be replaced by such as are ordinary. -/
theorem local_registries {rs : Registries} (h : K → rs.Ordinary) :
    Local K fun w => { w with registries := rs } :=
  ⟨⟨fun _ _ => rfl, fun _ => rfl⟩, fun _ => rfl, fun _ => rfl, fun hK _ hw => ⟨h hK, hw.files⟩⟩

/-- Adding an entry is routine, if its handler raises ordinary faults only. -/
theorem Shell.routine_add (i : RegistryId) {e : Entry} (he : K → e.handler.isOrdinary = true) :
    Routine K Own (add i e) := by
  refine .look (fun _ _ => rfl) fun w hw => ?_
  split
  · rename_i rs hadd
    exact .change (local_registries fun hK => (hw hK).registries.add? (he hK) hadd)
  · exact .throw fun _ => rfl

/-- Registering an entry is routine, if its handler raises ordinary faults only. -/
theorem Shell.routine_register (i : RegistryId) {e : Entry} (he : K → e.handler.isOrdinary = true) :
    Routine K Own (register i e) := by
  refine .look (fun _ _ => rfl) fun w hw => ?_
  refine .bind (.change (local_registries fun hK => (hw hK).registries.number e)) fun _ => ?_
  exact routine_add i he

/-- Removing a command is routine. -/
theorem Shell.routine_unregister (i : RegistryId) (name : String) :
    Routine K Own (unregister i name) :=
  .change ⟨⟨fun _ _ => rfl, fun _ => rfl⟩, fun _ => rfl, fun _ => rfl,
    fun _ _ hw => ⟨hw.registries.unregister i name, hw.files⟩⟩

/-- A routine action stays so with a routine one that is done in any case. -/
theorem Shell.routine_followedBy {a : Shell α} {last : Shell Unit} (ha : Routine K Own a)
    (hlast : Routine K Own last) : Routine K Own (followedBy a last) := by
  refine .bind (.catch ha fun f hf => ?_) fun x => .bind hlast fun _ => .pure x
  exact .bind hlast fun _ => .throw hf

/-- A routine action stays so under a redirection. -/
theorem Shell.routine_redirected {a : Shell α} (ha : Routine K Own a) (i target : RegistryId) :
    Routine K Own (redirected i target a) := by
  refine .look (fun _ _ => rfl) fun w hw => ?_
  refine .bind (.change (local_registries fun hK => (hw hK).registries.enter i target)) fun _ => ?_
  exact routine_followedBy ha (.change ⟨⟨fun _ _ => rfl, fun _ => rfl⟩, fun _ => rfl, fun _ => rfl,
    fun _ _ hu => ⟨hu.registries.leave _, hu.files⟩⟩)

/-! ## Importing -/

/-- The actions of a module are routine, if they raise ordinary faults only. -/
theorem Module.routine_runBody {body : List Action}
    (hbody : K → Action.importOrdinary body = true) : Routine K Own (Module.runBody body) := by
  induction body with
  | nil => exact .pure _
  | cons action rest ih =>
    have hboth := fun hK => Bool.and_eq_true_iff.mp (hbody hK)
    cases action with
    | raise r => exact .throw fun hK => (hboth hK).1
    | unknown name => exact .throw fun _ => rfl
    | define d script =>
      exact .bind (routine_register _ fun hK => (hboth hK).1) fun _ => ih fun hK => (hboth hK).2
    | undefine name =>
      exact .bind (routine_unregister _ name) fun _ => ih fun hK => (hboth hK).2
    | _ => exact ih fun hK => (hboth hK).2

/-- Running a module is routine, if it raises ordinary faults only. -/
theorem Module.routine_run {m : Module} (hm : K → m.isOrdinary = true) (directory : String) :
    Routine K Own (m.run directory) := by
  cases m with
  | unreadable => exact .throw fun _ => rfl
  | script body => exact .bind (.tell rfl) fun _ => routine_runBody hm
  | builtin b =>
    refine .look (fun _ _ => rfl) fun w _ => .bind (.change ⟨⟨fun _ _ => rfl, fun _ => rfl⟩,
      fun _ => rfl, fun _ => rfl, fun _ _ hu => ⟨hu.registries, hu.files⟩⟩) fun _ => ?_
    exact routine_register _ fun _ => rfl

/-- Executing the file of a module is routine: in an ordinary world all modules are ordinary. -/
theorem routine_executeFile (file : Path) : Routine K Own (executeFile file) := by
  refine .bind (routine_absolutePath file) fun path => ?_
  refine Files.routine_query_bind fun w name found hw hread => ?_
  obtain ⟨place, content⟩ := found
  cases content with
  | code m => exact Module.routine_run (fun hK => (hw hK).files.read hread) _
  | bytes data => exact .pure _

/-- **An import** is routine: in an ordinary world no fault escapes from it. -/
theorem routine_importFile (file : Path) : Routine K Own (importFile file) :=
  .recover (.bind (routine_executeFile file) fun _ => .pure _) fun _ => .pure _

namespace Loader

/-- Importing a module is routine. -/
theorem routine_importModule (key : String) (file : Path) : Routine K Own (importModule key file) := by
  refine .look (fun _ _ => rfl) fun w _ => ?_
  refine .bind (routine_redirected (routine_importFile file) _ _) fun failure => ?_
  refine .bind (.change ⟨⟨fun _ _ => rfl, fun _ => rfl⟩, fun _ => rfl, fun _ => rfl,
    fun _ _ hu => ⟨hu.registries, hu.files⟩⟩) fun _ => ?_
  split
  · exact .bind (.log _ _ _) fun _ => .pure _
  · exact .bind (.log _ _ _) fun _ => .pure _

/-- **Loading the module of a name** is routine. -/
theorem routine_load (name : String) : Routine K Own (load name) := by
  refine .look (fun _ _ => rfl) fun w _ => ?_
  split
  · exact .pure _
  · refine .bind routine_index fun t => ?_
    split
    · exact .log _ _ _
    · exact .bind (routine_importModule _ _) fun _ => .pure _

/-- Importing all modules that were found is routine. -/
theorem routine_loadFound (verbose : Bool) (found : List (String × Path)) :
    Routine K Own (loadFound verbose found) := by
  induction found with
  | nil => exact .pure _
  | cons entry rest ih =>
    refine .look (fun _ _ => rfl) fun w _ => ?_
    split
    · exact ih
    · refine .bind (routine_importModule _ _) fun succeeded => ?_
      have hmore : Routine K Own (loadFound verbose rest >>= fun more =>
          pure (if succeeded then more + 1 else more)) := .bind ih fun _ => .pure _
      dsimp only
      split
      · exact .bind (.log _ _ _) fun _ => hmore
      · exact hmore

/-- **Loading all modules** is routine. -/
theorem routine_loadAll (verbose : Bool) : Routine K Own (loadAll verbose) :=
  .bind routine_index fun _ => routine_loadFound verbose _

end Loader

end CommandShell
