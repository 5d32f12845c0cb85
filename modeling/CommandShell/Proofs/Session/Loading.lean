import CommandShell.Proofs.Session.Ready

/-! # What loading modules does to a session

Importing a tame module never fails, in a world that is ready for it, and leaves that world still. So
the loader fails only where it searches its directories for modules (`Searching`). -/

namespace CommandShell

open World

/-! ## Importing -/

namespace Module

/-- The actions of a module that defines quietly do nothing to the outside. -/
theorem calm_runBody {body : List Action} (h : Action.defineQuietly body = true) :
    Shell.Within Calm (runBody body) := by
  have hR := frame_calm
  induction body with
  | nil => exact hR.within_pure _
  | cons action rest ih =>
    cases action with
    | raise r => exact hR.within_throw _
    | unknown name => exact hR.within_throw _
    | define d script =>
      obtain ⟨hscript, hrest⟩ := Bool.and_eq_true_iff.mp h
      exact hR.within_bind (Shell.calm_register _ hscript) fun _ => ih hrest
    | undefine name => cases h
    | print text => exact ih h
    | finish value => exact ih h
    | run line => exact ih h
    | setInput line => exact ih h
    | record entry => exact ih h
    | load name => exact ih h

/-- A tame module leaves the world calm. -/
theorem calm_run {m : Module} (h : m.isTame = true) (directory : String) :
    Shell.Within Calm (m.run directory) := by
  have hR := frame_calm
  cases m with
  | unreadable => exact hR.within_throw _
  | script body =>
    exact hR.within_bind (Shell.calm_imported directory) fun _ => calm_runBody h
  | builtin b =>
    intro w
    have hcount : Calm w { w with imports := w.imports + 1 } := by
      intro hready
      have hstill : w.Still { w with imports := w.imports + 1 } :=
        ⟨rfl, rfl, rfl, rfl, rfl, rfl, rfl, rfl, rfl, rfl⟩
      exact ⟨hstill.ready hready hready.commands, hstill⟩
    have hcounted : (modify fun v => { v with imports := w.imports + 1 } : Shell PUnit).run w
        = .ok ⟨⟩ { w with imports := w.imports + 1 } := rfl
    have hquiet : (b.declaration.entry (.builtin b w.imports)).handler.isQuiet = true := h
    unfold Module.run
    rw [after_bind_ok (EStateM.run_get w), after_bind_ok hcounted]
    exact hR.trans hcount (Shell.calm_register _ hquiet _)

/-- Registering an entry fails in an ordinary way at most. -/
theorem faults_register (i : RegistryId) (e : Entry) :
    Shell.Faults (fun f => f.isOrdinary = true) (Shell.register i e) := by
  refine Shell.faults_bind (fun w f w' h => by cases h) ?_
  intro w
  refine Shell.faults_bind (Shell.faults_modify _) ?_
  intro _
  refine Shell.faults_bind (fun w f w' h => by cases h) ?_
  intro w
  split
  · exact Shell.faults_modify _
  · exact Shell.faults_throw rfl

/-- The actions of a module that defines quietly fail in an ordinary way at most. -/
theorem faults_runBody {body : List Action} (h : Action.defineQuietly body = true) :
    Shell.Faults (fun f => f.isOrdinary = true) (runBody body) := by
  induction body with
  | nil => exact Shell.faults_pure _
  | cons action rest ih =>
    cases action with
    | raise r => exact Shell.faults_throw h
    | unknown name => exact Shell.faults_throw rfl
    | define d script =>
      exact Shell.faults_bind (faults_register _ _) fun _ => ih (Bool.and_eq_true_iff.mp h).2
    | undefine name => cases h
    | print text => exact ih h
    | finish value => exact ih h
    | run line => exact ih h
    | setInput line => exact ih h
    | record entry => exact ih h
    | load name => exact ih h

/-- A tame module raises nothing that escapes from the shell. -/
theorem faults_run {m : Module} (h : m.isTame = true) (directory : String) :
    Shell.Faults (fun f => f.isOrdinary = true) (m.run directory) := by
  cases m with
  | unreadable => exact Shell.faults_throw rfl
  | script body => exact Shell.faults_bind (fun w f w' h => by cases h) fun _ => faults_runBody h
  | builtin b =>
    refine Shell.faults_bind (fun w f w' h => by cases h) ?_
    intro w
    exact Shell.faults_bind (Shell.faults_modify _) fun _ => faults_register _ _

end Module

/-- A query of the files fails in an ordinary way. -/
theorem Files.faults_query {α : Type} (path : Path)
    (q : FileTree → WorkingDirectory → String → Except Errno α) :
    Shell.Faults (fun f => f.isOrdinary = true) (query path q) := by
  intro w f w' hrun
  -- A name that cannot be written and an error of the tree are both ordinary.
  cases hname : fileName path.text with
  | error f' =>
    unfold query at hrun
    rw [hname, Shell.run_bind_error (Shell.run_ofExcept_error id f' w)] at hrun
    cases hrun
    unfold fileName at hname
    split at hname
    · cases hname
      rfl
    · simp only at hname
      split at hname
      · cases hname
        rfl
      · cases hname
  | ok name =>
    cases hq : q w.files w.cwd name with
    | error e =>
      rw [run_query_error hname hq] at hrun
      cases hrun
      rfl
    | ok a =>
      rw [run_query_ok hname hq] at hrun
      cases hrun

/-- An absolute path is made from the working directory alone. -/
theorem run_absolutePath (w : World) (path : Path) :
    (absolutePath path).run w = .ok (w.absolute path) w := by
  unfold absolutePath absolute
  rw [Shell.run_bind_ok (EStateM.run_get w)]
  cases w.cwd.location? with
  | none => rfl
  | some place => rfl

/-- An action whose faults are all recovered from gives something. -/
theorem run_recover_ordinary {α : Type} {a : Shell α} {w : World} (hcalm : Calm w (w.after a))
    (hfaults : ∀ f w', a.run w = .error f w' → f.isOrdinary = true) (g : Fault → α) :
    ∃ x w', (Shell.recover Fault.isOrdinary a fun f => pure (g f)).run w = .ok x w' ∧ Calm w w' := by
  obtain ⟨x, hrun⟩ := Shell.run_recover_all hfaults g
  exact ⟨x, _, hrun, hcalm⟩

/-- Executing the file of a module that may be found leaves the world calm, and fails in an ordinary way
at most. -/
theorem calm_executeFile {w : World} (h : w.Ready) {d : Path} (hd : d ∈ w.loader.directories)
    (name : String) : Calm w (w.after (executeFile (moduleFile d name))) ∧
      ∀ f w', (executeFile (moduleFile d name)).run w = .error f w' → f.isOrdinary = true := by
  have hR := frame_calm
  have hpath := run_absolutePath w (moduleFile d name)
  -- There may be no file, a file that is no module, or a module, which is tame.
  obtain ⟨f, hf⟩ | ⟨file, ⟨place, content⟩, hfile, hread, hrun⟩ :=
    Files.query_cases (w.absolute (moduleFile d name)) FileTree.read w
  · have hlocate : (Files.locateContent (w.absolute (moduleFile d name))).run w = .error f w := hf
    have hbody : (executeFile (moduleFile d name)).run w = .error f w :=
      (Shell.run_bind_ok hpath _).trans (Shell.run_bind_error hlocate _)
    rw [after_of_error hbody, hbody]
    refine ⟨hR.refl w, fun f' w' hfault => ?_⟩
    cases hfault
    exact Files.faults_query _ _ w f w hf
  · have hlocate : (Files.locateContent (w.absolute (moduleFile d name))).run w
        = .ok (place, content) w := hrun
    cases content with
    | bytes data =>
      have hbody : (executeFile (moduleFile d name)).run w = .ok () w :=
        (Shell.run_bind_ok hpath _).trans (Shell.run_bind_ok hlocate _)
      rw [after_of_ok hbody, hbody]
      exact ⟨hR.refl w, fun f' w' hfault => nomatch hfault⟩
    | code m =>
      have hbody : (executeFile (moduleFile d name)).run w
          = (m.run (place.dropLast.getLast?.getD "")).run w :=
        (Shell.run_bind_ok hpath _).trans (Shell.run_bind_ok hlocate _)
      have htame := h.modules m ⟨d, hd, name, file, place, hfile, hread⟩
      rw [World.after, hbody]
      exact ⟨Module.calm_run htame _ w, Module.faults_run htame _ w⟩

/-- **Importing a module that may be found never fails**, and leaves the world calm. -/
theorem run_importFile {w : World} (h : w.Ready) {d : Path} (hd : d ∈ w.loader.directories)
    (name : String) : ∃ r w', (importFile (moduleFile d name)).run w = .ok r w' ∧ Calm w w' := by
  obtain ⟨hcalm, hfaults⟩ := calm_executeFile h hd name
  refine run_recover_ordinary ?_ ?_ fun f => some (importMessage f)
  · exact frame_calm.bind_at hcalm fun _ w' _ => frame_calm.refl w'
  · intro f w' hrun
    cases hbody : (executeFile (moduleFile d name)).run w with
    | ok _ w₁ =>
      rw [Shell.run_bind_ok hbody] at hrun
      exact nomatch hrun
    | error f₁ w₁ =>
      rw [Shell.run_bind_error hbody] at hrun
      cases hrun
      exact hfaults f w' hbody

/-! ## Finding -/

/-- Looking for the initial file at a path does nothing to the outside. -/
theorem calm_initialFileAt (path : Path) : Shell.Within Calm (initialFileAt path) := by
  have hR := frame_calm
  refine hR.within_bind (Files.within_ask hR _ _) ?_
  intro b
  split
  · exact hR.within_pure _
  · split
    · exact hR.within_pure _
    · refine hR.within_bind (Files.within_ask hR _ _) ?_
      intro there
      split
      · exact hR.within_pure _
      · exact hR.within_bind (Shell.calm_log _ _ _) fun _ => hR.within_pure _

/-- Neither does looking for initial files. -/
theorem calm_initialFiles (paths : List Path) : Shell.Within Calm (initialFiles paths) := by
  have hR := frame_calm
  induction paths with
  | nil => exact hR.within_pure _
  | cons path rest ih =>
    exact hR.within_bind (calm_initialFileAt path) fun _ =>
      hR.within_bind ih fun _ => hR.within_pure _

/-- Neither does searching a directory. -/
theorem calm_discover (directory : Path) : Shell.Within Calm (discover directory) := by
  have hR := frame_calm
  refine hR.within_bind (Files.within_ask hR _ _) ?_
  intro there
  split
  · exact hR.within_pure _
  · refine hR.within_bind (Files.within_ask hR _ _) ?_
    intro isDirectory
    split
    · exact hR.within_bind (Shell.calm_log _ _ _) fun _ => hR.within_pure _
    · refine hR.within_bind ?_ fun paths => calm_initialFiles paths
      exact hR.within_bind (Files.within_query hR _ _) fun _ =>
        hR.within_bind hR.within_get fun _ => hR.within_pure _

/-- The initial file that is found at a path is the one inside of it. -/
theorem gives_initialFileAt (path : Path) :
    Shell.Gives (fun found => ∀ f ∈ found, f = path.child initialFile) (initialFileAt path) := by
  refine Shell.gives_bind (Shell.gives_any _) ?_
  intro b _
  split
  · exact Shell.gives_pure fun f hf => by cases hf
  · split
    · exact Shell.gives_pure fun f hf => by cases hf
    · refine Shell.gives_bind (Shell.gives_any _) ?_
      intro there _
      split
      · exact Shell.gives_pure fun f hf => (Option.some.inj hf).symm
      · exact Shell.gives_bind (Shell.gives_any _) fun _ _ =>
          Shell.gives_pure fun f hf => by cases hf

/-- The initial files that are found stand at the given paths. -/
theorem gives_initialFiles (paths : List Path) :
    Shell.Gives (fun files => ∀ f ∈ files, ∃ path ∈ paths, f = path.child initialFile)
      (initialFiles paths) := by
  induction paths with
  | nil => exact Shell.gives_pure fun f hf => absurd hf List.not_mem_nil
  | cons path rest ih =>
    refine Shell.gives_bind (gives_initialFileAt path) ?_
    intro found hfound
    refine Shell.gives_bind ih fun more hmore => Shell.gives_pure ?_
    intro f hf
    rcases List.mem_append.mp hf with hf | hf
    · exact ⟨path, List.mem_cons_self, hfound f (Option.mem_toList.mp hf)⟩
    · obtain ⟨p, hp, rfl⟩ := hmore f hf
      exact ⟨p, List.mem_cons_of_mem _ hp, rfl⟩

/-- What is discovered in a directory are initial files of modules in it. -/
theorem gives_discover (directory : Path) :
    Shell.Gives (fun files => ∀ f ∈ files, ∃ name, f = moduleFile directory name)
      (discover directory) := by
  have hnone : ∀ f ∈ ([] : List Path), ∃ name, f = moduleFile directory name :=
    fun f hf => absurd hf List.not_mem_nil
  refine Shell.gives_bind (Shell.gives_any _) ?_
  intro there _
  split
  · exact Shell.gives_pure hnone
  · refine Shell.gives_bind (Shell.gives_any _) ?_
    intro isDirectory _
    split
    · exact Shell.gives_bind (Shell.gives_any _) fun _ _ => Shell.gives_pure hnone
    · -- What is listed are entries of the directory, so each initial file lies one level below.
      have hlist : Shell.Gives (fun paths => ∀ p ∈ paths, ∃ name : String,
          p = ⟨directory.root, directory.parts ++ [RawText.ofString name]⟩)
          (Files.list directory) := by
        refine Shell.gives_bind (Shell.gives_any _) ?_
        intro _ _
        refine Shell.gives_bind (Shell.gives_any _) fun w _ => Shell.gives_pure ?_
        intro p hp
        obtain ⟨name, _, rfl⟩ := List.mem_map.mp hp
        exact ⟨name, rfl⟩
      refine Shell.gives_bind hlist ?_
      intro paths hpaths w files w' hrun f hf
      obtain ⟨p, hp, rfl⟩ := gives_initialFiles paths w files w' hrun f hf
      obtain ⟨name, rfl⟩ := hpaths p hp
      exact ⟨name, rfl⟩

/-- The files that are found stand in the directories that are searched. -/
theorem gives_mapM_discover (directories : List Path) :
    Shell.Gives (fun files => ∀ f ∈ files.flatten, ∃ d ∈ directories, ∃ name, f = moduleFile d name)
      (directories.mapM discover) := by
  induction directories with
  | nil =>
    rw [List.mapM_nil]
    exact Shell.gives_pure fun f hf => absurd hf List.not_mem_nil
  | cons d rest ih =>
    rw [List.mapM_cons]
    refine Shell.gives_bind (gives_discover d) ?_
    intro found hfound
    refine Shell.gives_bind ih fun more hmore => Shell.gives_pure ?_
    intro f hf
    rw [List.flatten_cons] at hf
    rcases List.mem_append.mp hf with hf | hf
    · exact ⟨d, List.mem_cons_self, hfound f hf⟩
    · obtain ⟨d', hd', hname⟩ := hmore f hf
      exact ⟨d', List.mem_cons_of_mem _ hd', hname⟩

namespace Loader

/-- Searching all directories does nothing to the outside. -/
theorem calm_index : Shell.Within Calm index := by
  have hR := frame_calm
  refine hR.within_bind hR.within_get ?_
  intro w
  exact hR.within_bind (hR.within_mapM fun d _ => calm_discover d) fun _ => hR.within_pure _

/-- The modules of the index are in the directories of the loader. -/
theorem mem_index {w w' : World} {t : Table String Path} (h : index.run w = .ok t w')
    {entry : String × Path} (hentry : entry ∈ t.toList) :
    ∃ d ∈ w.loader.directories, ∃ name, entry.2 = moduleFile d name := by
  -- The index holds the first file that is found for each name.
  have hfold : ∀ (files : List Path) (t : Table String Path),
      entry ∈ (files.foldl (fun t f => t.putNew (normalName f.parent.name) f) t).toList →
        entry ∈ t.toList ∨ entry.2 ∈ files := by
    intro files
    induction files with
    | nil => exact fun t h => .inl h
    | cons f files ih =>
      intro t h
      rcases ih _ h with h | h
      · simp only [Table.putNew] at h
        split at h
        · exact .inl h
        · rcases Table.mem_put h with rfl | h
          · exact .inr List.mem_cons_self
          · exact .inl h
      · exact .inr (List.mem_cons_of_mem _ h)
  unfold index at h
  rw [Shell.run_bind_ok (EStateM.run_get w)] at h
  cases hfiles : (w.loader.directories.mapM discover).run w with
  | error f w₁ =>
    rw [Shell.run_bind_error hfiles] at h
    cases h
  | ok files w₁ =>
    rw [Shell.run_bind_ok hfiles] at h
    cases h
    rcases hfold _ _ hentry with h | h
    · exact absurd h List.not_mem_nil
    · exact gives_mapM_discover _ w files _ hfiles _ h

/-! ## Loading -/

/-- **Importing a module that was found never fails**, and leaves the world calm. -/
theorem run_importModule {w : World} (h : w.Ready) {d : Path} (hd : d ∈ w.loader.directories)
    (key name : String) :
    ∃ b w', (importModule key (moduleFile d name)).run w = .ok b w' ∧ Calm w w' := by
  have hR := frame_calm
  -- Three things change: where modules register, what the module defines, and what was attempted.
  have hentered : Calm w { w with registries := (w.registries.enter moduleRegistry
      w.loader.registry).2 } := calm_registries fun hsound => by
    rw [Registries.get_enter]
    exact hsound
  obtain ⟨failure, w₁, himport, hcalm⟩ := run_importFile (hentered h).1 hd name
  obtain ⟨w₂, hredirected, hcalm₂⟩ := Shell.run_redirected himport hcalm
  have hmarked : Calm w₂ { w₂ with loader := { w₂.loader with
      attempted := w₂.loader.attempted ++ [key] } } := by
    intro hready
    have hstill : w₂.Still { w₂ with loader := { w₂.loader with
        attempted := w₂.loader.attempted ++ [key] } } := ⟨rfl, rfl, rfl, rfl, rfl, rfl, rfl, rfl, rfl, rfl⟩
    exact ⟨hstill.ready hready hready.commands, hstill⟩
  have hreported (level : Level) (source : LogSource) (message : String) :=
    Shell.run_log level source message { w₂ with loader := { w₂.loader with
      attempted := w₂.loader.attempted ++ [key] } }
  have hafter (level : Level) (source : LogSource) (message : String) :=
    (Shell.calm_log level source message).of_ok (hreported level source message)
  unfold importModule
  rw [Shell.run_bind_ok (EStateM.run_get w), Shell.run_bind_ok hredirected]
  cases failure with
  | some message =>
    exact ⟨false, _, Shell.run_bind_ok (hreported _ _ _) _,
      hR.trans hcalm₂ (hR.trans hmarked (hafter _ _ _))⟩
  | none =>
    exact ⟨true, _, Shell.run_bind_ok (hreported _ _ _) _,
      hR.trans hcalm₂ (hR.trans hmarked (hafter _ _ _))⟩

/-- **Importing modules that were found never fails**, and leaves the world calm. -/
theorem run_loadFound {w : World} (h : w.Ready) (verbose : Bool) {found : List (String × Path)}
    (hfound : ∀ entry ∈ found, ∃ d ∈ w.loader.directories, ∃ name, entry.2 = moduleFile d name) :
    ∃ n w', (loadFound verbose found).run w = .ok n w' ∧ Calm w w' := by
  have hR := frame_calm
  induction found generalizing w with
  | nil => exact ⟨0, w, rfl, hR.refl w⟩
  | cons entry rest ih =>
    obtain ⟨key, file⟩ := entry
    obtain ⟨d, hd, name, hname⟩ := hfound _ List.mem_cons_self
    obtain rfl : file = moduleFile d name := hname
    -- An import leaves the directories, so the modules behind it are still found in them.
    have hrest {w' : World} (hcalm : Calm w w') :
        ∃ n w'', (loadFound verbose rest).run w' = .ok n w'' ∧ Calm w' w'' := by
      refine ih (hcalm h).1 ?_
      intro entry hentry
      rw [(hcalm h).2.directories]
      exact hfound entry (List.mem_cons_of_mem _ hentry)
    rw [loadFound, Shell.run_bind_ok (EStateM.run_get w)]
    split
    · exact hrest (hR.refl w)
    · obtain ⟨b, w₁, himport, hcalm⟩ := run_importModule h hd key name
      rw [Shell.run_bind_ok himport]
      by_cases hverbose : (b && verbose) = true
      · have hlog := Shell.run_log .info .loader ("Loaded command: " ++ key) w₁
        have hcalm₂ := hR.trans hcalm ((Shell.calm_log _ _ _).of_ok hlog)
        obtain ⟨n, w₂, hmore, hcalm₃⟩ := hrest hcalm₂
        simp only [if_pos hverbose]
        rw [Shell.run_bind_ok hlog, Shell.run_bind_ok hmore]
        exact ⟨_, w₂, rfl, hR.trans hcalm₂ hcalm₃⟩
      · obtain ⟨n, w₂, hmore, hcalm₂⟩ := hrest hcalm
        simp only [if_neg hverbose]
        rw [Shell.run_bind_ok hmore]
        exact ⟨_, w₂, rfl, hR.trans hcalm hcalm₂⟩

/-- **After the search**, the module of a name is imported or there is none, and nothing fails. -/
theorem run_load_of_index {w w' : World} {t : Table String Path} (h : w.Ready)
    (hindex : index.run w = .ok t w') (h' : w'.Ready) (name : String) :
    ∃ w'', (match t.get? (normalName name) with
      | none => Shell.log .debug .loader ("No command module for " ++ Text.quoted name)
      | some file => do
        let _ ← importModule (normalName name) file : Shell Unit).run w' = .ok () w'' ∧ Calm w' w'' := by
  obtain ⟨_, hstill⟩ := calm_index.of_ok hindex h
  cases hfile : t.get? (normalName name) with
  | none =>
    have hlog := Shell.run_log .debug .loader ("No command module for " ++ Text.quoted name) w'
    exact ⟨_, hlog, (Shell.calm_log _ _ _).of_ok hlog⟩
  | some file =>
    obtain ⟨d, hd, n, hname⟩ := mem_index hindex (Table.mem_of_get? hfile)
    obtain rfl : file = moduleFile d n := hname
    have hd' : d ∈ w'.loader.directories := by
      rw [hstill.directories]
      exact hd
    obtain ⟨b, w₂, himport, hcalm⟩ := run_importModule h' hd' (normalName name) n
    exact ⟨w₂, Shell.run_bind_ok himport _, hcalm⟩

/-- The fault with which the search for the module of a name ends, if it ends with one. What was tried
before is not searched for. -/
def searchFault (w : World) (name : String) : Option Fault :=
  if w.loader.attempted.contains (normalName name) then none
  else match w.outcome index with
    | .ok _ => none
    | .error f => some f

/-- **Loading the module of a name** fails only by the search for it. -/
theorem outcome_load {w : World} (h : w.Ready) (name : String) :
    w.outcome (load name) = match searchFault w name with
      | some f => .error f
      | none => .ok () := by
  unfold load searchFault
  rw [outcome_bind_ok (EStateM.run_get w)]
  split
  · rfl
  · cases hindex : index.run w with
    | error f w₁ =>
      rw [outcome_of_error (Shell.run_bind_error hindex _), outcome_of_error hindex]
    | ok t w₁ =>
      obtain ⟨w₂, hload, -⟩ := run_load_of_index h hindex (calm_index.of_ok hindex h).1 name
      rw [outcome_bind_ok hindex, outcome_of_ok hindex]
      exact outcome_of_ok hload

end Loader

/-! ## Searching -/

/-- An action that searches for modules: it keeps a ready world ready, does nothing in it, and fails
only where the directories of the loader cannot be searched. -/
def Searching {α : Type} (a : Shell α) : Prop :=
  ∀ w : World, w.Ready → (w.after a).Ready ∧ w.Still (w.after a) ∧
    ∀ f w', a.run w = .error f w' → ∃ u v, w.Still u ∧ Loader.index.run u = .error f v

namespace Searching

variable {α β : Type}

/-- A calm action without faults is a search. -/
theorem of_calm {a : Shell α} (ha : Shell.Within Calm a) (hok : ∀ w f w', a.run w ≠ .error f w') :
    Searching a := by
  intro w hready
  obtain ⟨hready', hstill⟩ := ha w hready
  exact ⟨hready', hstill, fun f w' hrun => absurd hrun (hok w f w')⟩

/-- What only gives something is a search. -/
theorem pure (x : α) : Searching (pure x : Shell α) :=
  of_calm (frame_calm.within_pure x) fun w f w' hrun => by cases hrun

/-- Looking at the world is a search. -/
theorem get : Searching (get : Shell World) :=
  of_calm frame_calm.within_get fun w f w' hrun => by cases hrun

/-- Logging is a search. -/
theorem log (level : Level) (source : LogSource) (message : String) :
    Searching (Shell.log level source message) := by
  refine of_calm (Shell.calm_log level source message) ?_
  intro w f w' hrun
  rw [Shell.run_log] at hrun
  cases hrun

/-- Searches may follow each other. -/
theorem bind {a : Shell α} {g : α → Shell β} (ha : Searching a) (hg : ∀ x, Searching (g x)) :
    Searching (a >>= g) := by
  intro w hready
  obtain ⟨hready₁, hstill₁, hfault⟩ := ha w hready
  cases hrun : a.run w with
  | error f w₁ =>
    have hbind := Shell.run_bind_error hrun g
    rw [after_of_error hrun] at hready₁ hstill₁
    rw [after_of_error hbind]
    refine ⟨hready₁, hstill₁, ?_⟩
    intro f' w' h
    rw [hbind] at h
    cases h
    exact hfault f _ hrun
  | ok x w₁ =>
    rw [after_of_ok hrun] at hready₁ hstill₁
    obtain ⟨hready₂, hstill₂, hfault₂⟩ := hg x w₁ hready₁
    rw [World.after, Shell.run_bind_ok hrun]
    refine ⟨hready₂, hstill₁.trans hstill₂, ?_⟩
    intro f w' h
    obtain ⟨u, v, hu, hindex⟩ := hfault₂ f w' h
    exact ⟨u, v, hstill₁.trans hu, hindex⟩

/-- What is not recovered from was a fault of the action. -/
theorem recover {test : Fault → Bool} {a : Shell α} (ha : Searching a) (g : Fault → α) :
    Searching (Shell.recover test a fun f => Pure.pure (g f)) := by
  intro w hready
  obtain ⟨hready₁, hstill₁, hfault⟩ := ha w hready
  cases hrun : a.run w with
  | ok x w₁ =>
    rw [after_of_ok hrun] at hready₁ hstill₁
    rw [after_of_ok (Shell.run_recover_ok hrun _ _)]
    refine ⟨hready₁, hstill₁, ?_⟩
    intro f w' h
    rw [Shell.run_recover_ok hrun] at h
    cases h
  | error f w₁ =>
    rw [after_of_error hrun] at hready₁ hstill₁
    rw [World.after, Shell.run_recover_error hrun]
    by_cases htest : test f = true
    · rw [if_pos htest]
      exact ⟨hready₁, hstill₁, fun f' w' h => by cases h⟩
    · rw [if_neg htest]
      refine ⟨hready₁, hstill₁, ?_⟩
      intro f' w' h
      cases h
      exact hfault f _ hrun

/-- Searching the directories for modules is a search. -/
theorem index : Searching Loader.index := by
  intro w hready
  obtain ⟨hready', hstill⟩ := Loader.calm_index w hready
  exact ⟨hready', hstill, fun f w' hrun => ⟨w, w', .refl w, hrun⟩⟩

/-- After the search nothing fails. -/
theorem of_index {g : Table String Path → Shell β} (hg : ∀ w t w', w.Ready →
    Loader.index.run w = .ok t w' → w'.Ready → ∃ x w'', (g t).run w' = .ok x w'' ∧ Calm w' w'') :
    Searching (Loader.index >>= g) := by
  intro w hready
  obtain ⟨hready₁, hstill₁⟩ := Loader.calm_index w hready
  -- A fault of the search is the only one there is.
  cases hrun : Loader.index.run w with
  | error f w₁ =>
    have hbind := Shell.run_bind_error hrun g
    rw [after_of_error hrun] at hready₁ hstill₁
    rw [after_of_error hbind]
    refine ⟨hready₁, hstill₁, ?_⟩
    intro f' w' h
    rw [hbind] at h
    cases h
    exact ⟨w, _, .refl w, hrun⟩
  | ok t w₁ =>
    rw [after_of_ok hrun] at hready₁ hstill₁
    obtain ⟨x, w₂, hnext, hcalm⟩ := hg w t w₁ hready hrun hready₁
    have hbind := (Shell.run_bind_ok hrun g).trans hnext
    obtain ⟨hready₂, hstill₂⟩ := hcalm hready₁
    rw [after_of_ok hbind]
    refine ⟨hready₂, hstill₁.trans hstill₂, ?_⟩
    intro f w' h
    rw [hbind] at h
    cases h

/-- **Loading all modules** is searching. -/
theorem loadAll (verbose : Bool) : Searching (Loader.loadAll verbose) := by
  refine of_index ?_
  intro w t w' hready hindex hready'
  refine Loader.run_loadFound hready' verbose ?_
  intro entry hentry
  obtain ⟨d, hd, name, hname⟩ := Loader.mem_index hindex hentry
  obtain ⟨_, hstill⟩ := Loader.calm_index.of_ok hindex hready
  exact ⟨d, by rw [hstill.directories]; exact hd, name, hname⟩

/-- **Loading the module of a name** is searching. -/
theorem load (name : String) : Searching (Loader.load name) := by
  refine bind get ?_
  intro w
  split
  · exact pure ()
  · exact of_index fun w t w' hready hindex hready' =>
      ⟨(), Loader.run_load_of_index hready hindex hready' name⟩

end Searching

end CommandShell
