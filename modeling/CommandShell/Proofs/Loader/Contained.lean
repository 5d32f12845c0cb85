import CommandShell.Proofs.Loader.Imports
import CommandShell.Proofs.Registry.Aliases

/-! # Imports are contained

While a loader imports a module, the registry that modules register with is redirected to the registry of
the loader. Whatever a module does and however its import ends, the redirections are then what they were
before (`Loader.Import.redirect?_after`). If the registry of the loader is another one than that of the
modules and is not redirected itself, it receives, in order, every entry that the modules register
(`Module.entries`), those of modules that fail half way included, and the registry of modules receives
nothing: a module can only remove commands from it (`Registries.Filled`, `Loader.Imports.filled`). The main
result says so for every call on a loader (`Loader.imports_are_contained`). -/

namespace CommandShell

/-! ## What a module registers -/

/-- The entries that some actions of a module register, until one of them raises something. They are
numbered from `made` on. -/
def Action.entries (made : Nat) : List Action → List Entry
  | [] => []
  | .raise _ :: _ => []
  | .unknown _ :: _ => []
  | .define d body :: rest =>
    { d.entry (.script body) with serial := made } :: entries (made + 1) rest
  | _ :: rest => entries made rest

/-- The names of the commands that some actions of a module remove. -/
def Action.removed : List Action → List String
  | [] => []
  | .raise _ :: _ => []
  | .unknown _ :: _ => []
  | .undefine name :: rest => name :: removed rest
  | _ :: rest => removed rest

/-- The entries that a module registers when `made` entries were registered and `imports` modules were
imported before. -/
def Module.entries (made imports : Nat) : Module → List Entry
  | .unreadable => []
  | .script body => Action.entries made body
  | .builtin b => [{ b.declaration.entry (.builtin b imports) with serial := made }]

/-- The names of the commands that a module removes. -/
def Module.removed : Module → List String
  | .unreadable => []
  | .script body => Action.removed body
  | .builtin _ => []

/-- The module that a file holds. -/
def World.moduleAt? (w : World) (file : Path) : Option Module :=
  match w.outcome (absolutePath file >>= Files.locateContent) with
  | .ok (_, .code m) => some m
  | _ => none

/-- Executing a file runs the module that it holds; without one it changes nothing. -/
theorem World.executeFile_cases (w : World) (file : Path) :
    (w.moduleAt? file = none ∧ w.after (executeFile file) = w) ∨
      ∃ m directory, w.moduleAt? file = some m ∧
        w.after (executeFile file) = w.after (m.run directory) := by
  obtain ⟨path, hpath⟩ : ∃ path, (absolutePath file).run w = .ok path w := by
    unfold absolutePath
    rw [Shell.run_bind_ok (EStateM.run_get w)]
    cases w.cwd.location? with
    | none => exact ⟨_, rfl⟩
    | some place => exact ⟨_, rfl⟩
  unfold moduleAt? executeFile
  rw [outcome_bind_ok hpath, after_bind_ok hpath]
  obtain ⟨f, hlocate⟩ | ⟨name, ⟨place, content⟩, -, -, hlocate⟩ :=
    Files.query_cases path FileTree.read w
  · have hfails : (Files.locateContent path).run w = .error f w := hlocate
    rw [outcome_of_error hfails, after_of_error (Shell.run_bind_error hfails _)]
    exact .inl ⟨rfl, rfl⟩
  · have hgives : (Files.locateContent path).run w = .ok (place, content) w := hlocate
    rw [outcome_of_ok hgives, after_bind_ok hgives]
    cases content with
    | bytes data => exact .inl ⟨rfl, rfl⟩
    | code m => exact .inr ⟨m, _, rfl, rfl⟩

/-- A file under an absolute path holds the module that is read from it. -/
theorem World.moduleAt?_of_read {w : World} {file : Path} {name : String} {place : Location}
    {m : Module} (hrooted : file.IsRooted) (hname : Files.fileName file.text = .ok name)
    (hread : w.files.read w.cwd name = .ok (place, .code m)) : w.moduleAt? file = some m := by
  have hlocate : (Files.locateContent file).run w = .ok (place, .code m) w :=
    Files.run_query_ok hname hread
  unfold moduleAt?
  rw [outcome_bind_ok (run_absolutePath_of_isRooted hrooted w), outcome_of_ok hlocate]

/-! ## Registries that receive entries -/

/-- Every command and every alias of a registry stood in another one before. -/
structure Registry.NothingNew (r r' : Registry) : Prop where
  /-- The commands are old. -/
  commands : ∀ k e, r'.commands.get? k = some e → r.commands.get? k = some e
  /-- The aliases are old. -/
  aliases : ∀ a k, r'.aliases.get? a = some k → r.aliases.get? a = some k

namespace Registry

/-- A registry has nothing new beside itself. -/
theorem NothingNew.refl (r : Registry) : r.NothingNew r := ⟨fun _ _ => id, fun _ _ => id⟩

/-- What is old to an old registry is old. -/
theorem NothingNew.trans {r r' r'' : Registry} (h : r.NothingNew r') (h' : r'.NothingNew r'') :
    r.NothingNew r'' :=
  ⟨fun k e hk => h.commands k e (h'.commands k e hk), fun a k ha => h.aliases a k (h'.aliases a k ha)⟩

/-- Removing a command adds nothing. -/
theorem nothingNew_unregister (r : Registry) (name : String) : r.NothingNew (r.unregister name) := by
  cases hentry : r.commands.get? (normalName name) with
  | none =>
    rw [unregister_of_none hentry]
    exact .refl r
  | some e =>
    constructor
    · intro k e' hk
      rw [commands_unregister] at hk
      split at hk
      · cases hk
      · exact hk
    · intro a k ha
      rw [aliases_unregister hentry] at ha
      split at ha
      · cases ha
      · exact ha

/-- Removing commands brings nothing new. -/
theorem nothingNew_foldl_unregister (names : List String) (r : Registry) :
    r.NothingNew (names.foldl Registry.unregister r) := by
  induction names generalizing r with
  | nil => exact .refl r
  | cons name names ih => exact (nothingNew_unregister r name).trans (ih _)

end Registry

/-- The registry `j` received some entries, in order, and commands of some names were removed from the
registry of modules. Nothing else came or went. -/
structure Registries.Filled (j : RegistryId) (es : List Entry) (gone : List String)
    (rs rs' : Registries) : Prop where
  /-- The entries were added. -/
  target : rs'.get j = es.foldl Registry.add (rs.get j)
  /-- The commands were removed. -/
  modules : rs'.get moduleRegistry = gone.foldl Registry.unregister (rs.get moduleRegistry)
  /-- The other registries stay. -/
  others : ∀ i, i ≠ j → i ≠ moduleRegistry → rs'.get i = rs.get i

namespace Registries

variable {j : RegistryId} {es fs : List Entry} {gone more : List String} {rs rs' rs'' : Registries}

/-- Registries that hold the same were filled with nothing. -/
theorem filled_of_get (h : ∀ i, rs'.get i = rs.get i) : Filled j [] [] rs rs' :=
  ⟨h j, h moduleRegistry, fun i _ _ => h i⟩

/-- A registry that is filled twice received the entries of both times, in order. -/
theorem Filled.trans (h : Filled j es gone rs rs') (h' : Filled j fs more rs' rs'') :
    Filled j (es ++ fs) (gone ++ more) rs rs'' where
  target := by rw [h'.target, h.target, List.foldl_append]
  modules := by rw [h'.modules, h.modules, List.foldl_append]
  others i hj hm := (h'.others i hj hm).trans (h.others i hj hm)

/-- Registering numbers an entry and adds it. -/
theorem filled_register (hj : j ≠ moduleRegistry) (rs : Registries) (e : Entry) :
    Filled j [(rs.number e).1] [] rs
      ((rs.number e).2.set j ((rs.get j).add (rs.number e).1)) where
  target := by rw [get_set, if_pos rfl]; rfl
  modules := by rw [get_set, if_neg hj]; rfl
  others i hi _ := by rw [get_set, if_neg (Ne.symm hi)]; rfl

/-- Commands are removed from the registry of modules, wherever it is redirected. -/
theorem filled_unregister (hj : j ≠ moduleRegistry) (rs : Registries) (name : String) :
    Filled j [] [name] rs
      (rs.set moduleRegistry ((rs.get moduleRegistry).unregister name)) where
  target := by rw [get_set, if_neg (Ne.symm hj)]; rfl
  modules := by rw [get_set, if_pos rfl]; rfl
  others i _ hm := by rw [get_set, if_neg (Ne.symm hm)]

/-- The registry of modules receives nothing. -/
theorem Filled.nothingNew (h : Filled j es gone rs rs') :
    (rs.get moduleRegistry).NothingNew (rs'.get moduleRegistry) := by
  rw [h.modules]
  exact Registry.nothingNew_foldl_unregister gone _

end Registries

/-! ## Running a module -/

section

open Registries

variable {j : RegistryId} {u : World}

/-- The actions of a module fill the registry that they are redirected to with what they register, up to
the first that raises something. -/
theorem filled_runBody (hj : j ≠ moduleRegistry) (body : List Action)
    (htarget : u.registries.target? moduleRegistry = some j) :
    Filled j (Action.entries u.registries.made body) (Action.removed body) u.registries
      (u.after (Module.runBody body)).registries := by
  induction body generalizing u with
  | nil => exact filled_of_get fun _ => rfl
  | cons action rest ih =>
    cases action with
    | raise r => exact filled_of_get fun _ => rfl
    | unknown name => exact filled_of_get fun _ => rfl
    | define d body =>
      have hrun := Shell.run_register htarget (d.entry (.script body))
      have hafter := World.after_bind_ok hrun fun _ => Module.runBody rest
      have hrest := ih (u := u.after (Shell.register moduleRegistry (d.entry (.script body)))) (by
        rw [World.after_of_ok hrun]
        exact (target?_congr (by rfl) moduleRegistry).trans htarget)
      rw [World.after_of_ok hrun] at hrest
      have hfirst := filled_register hj u.registries (d.entry (.script body))
      unfold Module.runBody
      rw [hafter]
      exact hfirst.trans hrest
    | undefine name =>
      have hrest := ih (u := u.after (Shell.unregister moduleRegistry name))
        ((target?_congr (by rfl) moduleRegistry).trans htarget)
      exact (filled_unregister hj u.registries name).trans hrest
    | _ => exact ih htarget

/-- A module fills the registry that it is redirected to with what it registers. -/
theorem filled_runModule (hj : j ≠ moduleRegistry) (m : Module) (directory : String)
    (htarget : u.registries.target? moduleRegistry = some j) :
    Filled j (m.entries u.registries.made u.imports) m.removed u.registries
      (u.after (m.run directory)).registries := by
  cases m with
  | unreadable => exact filled_of_get fun _ => rfl
  | script body => exact filled_runBody (u := u.emitted [.imported directory]) hj body htarget
  | builtin b =>
    let counted := { u with imports := u.imports + 1 }
    have hrun : (Module.run directory (.builtin b)).run u = .ok () _ :=
      Shell.run_register (u := counted) htarget (b.declaration.entry (.builtin b u.imports))
    rw [World.after_of_ok hrun]
    exact filled_register hj u.registries (b.declaration.entry (.builtin b u.imports))

end

namespace Loader

open Registries World

/-! ## One import -/

namespace Import

variable (i : Import)

/-- The module that is imported. -/
def module? : Option Module := i.entered.moduleAt? i.file

/-- The entries that the module registers. -/
def registered : List Entry :=
  (i.module?.map (Module.entries i.world.registries.made i.world.imports)).getD []

/-- The names of the commands that the module removes. -/
def removed : List String := (i.module?.map Module.removed).getD []

/-- A mark changes no registry. -/
theorem registries_after : i.after.registries = i.left.registries := by
  unfold after
  split
  · rfl
  · rfl

/-- An import does not change where the loader registers. -/
theorem registry_after : i.after.loader.registry = i.world.loader.registry := by
  have hleft : i.left.loader = i.world.loader :=
    importing_loader.within_redirected (importing_loader.within_importFile i.file) _ _ i.world
  have hafter : i.after.loader.registry = i.left.loader.registry := by
    unfold after
    split
    · rfl
    · rfl
  rw [hafter, hleft]

/-- No module touches a redirection. -/
theorem registering_redirects :
    Shell.Frame.Registering fun w w' : World => w'.registries.redirects = w.registries.redirects where
  refl _ := rfl
  trans h h' := h'.trans h
  emitted _ _ := rfl
  contents _ _ h := h
  imports _ _ := rfl

/-- **An import restores the redirections**, whatever the module does and however it ends. -/
theorem redirect?_after (k : RegistryId) :
    i.after.registries.redirect? k = i.world.registries.redirect? k := by
  rw [i.registries_after, i.left_eq]
  exact redirect?_leave_enter (registering_redirects.within_executeFile i.file i.entered) k

/-- **An import fills the registry of the loader** with what the module registers. -/
theorem filled (hj : i.world.loader.registry ≠ moduleRegistry)
    (hfree : i.world.registries.redirect? i.world.loader.registry = none) :
    Filled i.world.loader.registry i.registered i.removed i.world.registries i.after.registries := by
  have htarget : i.entered.registries.target? moduleRegistry = some i.world.loader.registry :=
    target?_enter hfree _
  have hmade : i.entered.registries.made = i.world.registries.made := made_enter _ _ _
  have hentered : Filled i.world.loader.registry [] [] i.world.registries i.entered.registries :=
    filled_of_get fun k => get_enter _ _ _ k
  have hexecuted : Filled i.world.loader.registry i.registered i.removed i.entered.registries
      (i.entered.after (executeFile i.file)).registries := by
    unfold registered removed module?
    obtain ⟨hnone, hafter⟩ | ⟨m, directory, hsome, hafter⟩ := i.entered.executeFile_cases i.file
    · rw [hnone, hafter]
      exact filled_of_get fun _ => rfl
    · rw [hsome, hafter, ← hmade]
      exact filled_runModule hj m directory htarget
  have hleft : Filled i.world.loader.registry [] []
      (i.entered.after (executeFile i.file)).registries i.after.registries := by
    rw [i.registries_after, i.left_eq]
    exact filled_of_get fun k => get_leave _ _ k
  simpa using (hentered.trans hexecuted).trans hleft

/-- So it does if there were only reports before it. -/
theorem filled_of_reports {w : World} (h : w.OnlyReports i.world)
    (hj : w.loader.registry ≠ moduleRegistry)
    (hfree : w.registries.redirect? w.loader.registry = none) :
    i.after.loader.registry = w.loader.registry ∧
      Filled w.loader.registry i.registered i.removed w.registries i.after.registries := by
  obtain ⟨es, -, hi⟩ := h
  have hregistry : i.world.loader.registry = w.loader.registry := by rw [hi]; rfl
  have hregistries : i.world.registries = w.registries := by rw [hi]; rfl
  rw [← hregistry, ← hregistries] at hfree ⊢
  rw [← hregistry] at hj
  exact ⟨i.registry_after, i.filled hj hfree⟩

/-- An import leaves every redirection as it was before the reports in front of it. -/
theorem redirect?_after_of_reports {w : World} (h : w.OnlyReports i.world) (k : RegistryId) :
    i.after.registries.redirect? k = w.registries.redirect? k := by
  obtain ⟨es, -, hi⟩ := h
  rw [i.redirect?_after, hi]
  rfl

end Import

/-! ## Calls -/

namespace Imports

variable {w w' : World} {fs : List (String × Path)} {is : List Import} {r : Except Fault Unit}

/-- Imports restore the redirections. -/
theorem redirect?_eq (h : Imports w fs is r w') (k : RegistryId) :
    w'.registries.redirect? k = w.registries.redirect? k := by
  induction h with
  | done last =>
    obtain ⟨es, -, rfl⟩ := last
    rfl
  | @completed w w' i fs is r first hnone rest ih => rw [ih, i.redirect?_after_of_reports first]
  | @escaped w i fs f first hsome => exact i.redirect?_after_of_reports first k

/-- **Imports fill the registry of the loader** with what the modules register, in order. -/
theorem filled (h : Imports w fs is r w') (hj : w.loader.registry ≠ moduleRegistry)
    (hfree : w.registries.redirect? w.loader.registry = none) :
    Filled w.loader.registry (is.flatMap Import.registered) (is.flatMap Import.removed)
      w.registries w'.registries := by
  induction h with
  | done last =>
    obtain ⟨es, -, rfl⟩ := last
    exact filled_of_get fun _ => rfl
  | @completed w w' i fs is r first hnone rest ih =>
    obtain ⟨hregistry, hfirst⟩ := i.filled_of_reports first hj hfree
    rw [hregistry] at ih
    exact hfirst.trans (ih hj ((i.redirect?_after_of_reports first _).trans hfree))
  | @escaped w i fs f first hsome =>
    obtain ⟨-, hfirst⟩ := i.filled_of_reports first hj hfree
    simpa using hfirst

end Imports

/-- A call imports some modules, or none if its search fails. -/
theorem exists_imports (w : World) (c : Call) :
    ∃ is, Run w [.call c] is (w.after c.perform) ∧ ∃ fs r, Imports w fs is r (w.after c.perform) := by
  obtain ⟨is, hrun⟩ := exists_run [.call c] w
  refine ⟨is, hrun, ?_⟩
  cases hrun with
  | unsearchable due fails reports rest =>
    cases rest
    exact ⟨[], .ok (), .done reports⟩
  | @call _ _ _ fs _ is js due imports rest =>
    cases rest
    rw [List.append_nil]
    exact ⟨fs, _, imports⟩

/-- **Imports are contained.** However a call on a loader ends, every registry is redirected as it was
before. If the loader does not register with the registry of modules, and its own registry is not
redirected, then this one has received all entries that the imported modules registered, in order, and
the registry of modules holds no entry and no alias that it did not hold before. -/
theorem imports_are_contained (w : World) (c : Call) :
    let w' := w.after c.perform
    (∀ i, w'.registries.redirect? i = w.registries.redirect? i) ∧
      ∃ is, Run w [.call c] is w' ∧
        (w.loader.registry ≠ moduleRegistry →
          w.registries.redirect? w.loader.registry = none →
            Filled w.loader.registry (is.flatMap Import.registered) (is.flatMap Import.removed)
              w.registries w'.registries ∧
            (w.registries.get moduleRegistry).NothingNew (w'.registries.get moduleRegistry)) := by
  intro w'
  obtain ⟨is, hrun, fs, r, himports⟩ := exists_imports w c
  refine ⟨himports.redirect?_eq, is, hrun, fun hj hfree => ?_⟩
  have hfilled := himports.filled hj hfree
  exact ⟨hfilled, hfilled.nothingNew⟩

/-! ## A module that asks to exit -/

/-- What the module registers. -/
def leavingDeclaration : Declaration := ⟨"greet", "Greet", none, ["hi"], false⟩

/-- A module that registers a command and then ends the program. -/
def leavingModule : Module :=
  .script [.define leavingDeclaration [], .raise ⟨"SystemExit", .escaping, none⟩]

/-- A world in which the module is found, and with a loader that has a registry of its own. -/
def leavingWorld : World :=
  { (default : World) with
    files := sampleTree leavingModule
    loader := ⟨[sampleDirectory], .named "own", []⟩ }

/-- Whatever was reported before, the import of the module registers its one command. -/
theorem registered_leaving {i : Import} (hfile : i.file = sampleFile)
    (hworld : leavingWorld.OnlyReports i.world) :
    i.registered = [leavingDeclaration.entry (.script [])] := by
  obtain ⟨es, -, hi⟩ := hworld
  have hfiles : i.entered.files = sampleTree leavingModule := by
    show i.world.files = _
    rw [hi]
    rfl
  have hmodule : i.module? = some leavingModule := by
    unfold Import.module?
    rw [hfile]
    apply World.moduleAt?_of_read isRooted_sampleFile rfl
    rw [hfiles]
    exact read_sampleTree _ _
  have hmade : i.world.registries.made = 0 := by rw [hi]; rfl
  rw [Import.registered, hmodule, hmade]
  rfl

/-- A module that registers a command and then ends the program leaves the command in the loader's
registry, no redirection, and nothing new among the modules. -/
theorem imports_are_contained_leaving :
    let w' := leavingWorld.after (Call.loadAll false).perform
    w'.registries.redirect? moduleRegistry = none ∧
      w'.registries.get (.named "own") = Registry.empty.add (leavingDeclaration.entry (.script [])) ∧
      Registry.empty.NothingNew (w'.registries.get moduleRegistry) := by
  intro w'
  obtain ⟨hredirect, is, hrun, hcontained⟩ := imports_are_contained leavingWorld (.loadAll false)
  obtain ⟨hfilled, hnothing⟩ := hcontained (by decide) rfl
  -- The module is the only one that is due.
  have hindex := run_index_sample (w := leavingWorld) rfl rfl
  have hdue : (Call.loadAll false).due leavingWorld = .ok [("extra", sampleFile)] := by
    rw [Call.due, Call.asked, outcome_of_ok hindex]
    rfl
  have hregistered : is.flatMap Import.registered = [leavingDeclaration.entry (.script [])] := by
    cases hrun with
    | unsearchable due fails reports rest =>
      rw [hdue] at due
      cases due
    | @call _ _ _ fs _ is js due imports rest =>
      have hfs := Except.ok.inj (hdue.symm.trans due)
      cases rest
      generalize leavingWorld.outcome _ = r, leavingWorld.after _ = v at imports
      cases imports with
      | done last => cases hfs
      | completed first hnone rest =>
        obtain ⟨hfirst, rfl⟩ := List.cons.inj hfs
        cases rest
        simp [registered_leaving (Prod.mk.inj hfirst).2.symm first]
      | escaped first hsome =>
        obtain ⟨hfirst, -⟩ := List.cons.inj hfs
        simp [registered_leaving (Prod.mk.inj hfirst).2.symm first]
  rw [hregistered] at hfilled
  exact ⟨hredirect _, hfilled.target, hnothing⟩

end Loader

end CommandShell
