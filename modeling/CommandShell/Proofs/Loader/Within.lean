import CommandShell.Proofs.Registry.Redirects
import CommandShell.Proofs.Shell.Heeds

/-! # What loading may touch

Loading modules imports some of them, which changes the registries, counts the imports, marks what was
attempted, and reports. A relation that allows all this is a `Frame.Loading`, and whatever the loader
does stays within it, whatever the modules are and however their import ends. -/

namespace CommandShell

namespace Shell

/-! ## What registering does -/

section

variable {i j : RegistryId} {u : World}

/-- An entry comes to the registry that it is added to, at the end of the redirections. -/
theorem run_add (h : u.registries.target? i = some j) (e : Entry) :
    (add i e).run u
      = .ok () { u with registries := u.registries.set j ((u.registries.get j).add e) } := by
  unfold add
  rw [run_bind_ok (EStateM.run_get u), Registries.add?, h]
  rfl

/-- Registering numbers an entry and adds it. -/
theorem run_register_eq (i : RegistryId) (e : Entry) (u : World) :
    (register i e).run u = (add i (u.registries.number e).1).run
      { u with registries := (u.registries.number e).2 } := by
  unfold register
  rw [run_bind_ok (EStateM.run_get u)]
  rfl

/-- A registered entry comes, with its number, to the registry at the end of the redirections. -/
theorem run_register (h : u.registries.target? i = some j) (e : Entry) :
    (register i e).run u = .ok () { u with
      registries := (u.registries.number e).2.set j
        ((u.registries.get j).add (u.registries.number e).1) } := by
  have htarget : (u.registries.number e).2.target? i = u.registries.target? i :=
    Registries.target?_congr (by rfl) i
  rw [run_register_eq]
  exact run_add (htarget.trans h) _

end

/-! ## Frames -/

variable {R : World → World → Prop}

/-- A frame that allows what modules change: redirections stay as they are. -/
structure Frame.Registering (R : World → World → Prop) : Prop extends Frame.Reporting R where
  /-- Commands may come and go. -/
  contents : ∀ w registries, registries.redirects = w.registries.redirects → R w { w with registries }
  /-- Imports may be counted. -/
  imports : ∀ w imports, R w { w with imports }

/-- A frame that allows what modules change, and redirections. -/
structure Frame.Importing (R : World → World → Prop) : Prop extends Frame.Registering R where
  /-- Registries may change in any way. -/
  registries : ∀ w registries, R w { w with registries }
  contents := fun w rs _ => registries w rs

/-- A frame that allows what modules and the loader change. -/
structure Frame.Loading (R : World → World → Prop) : Prop extends Frame.Importing R where
  /-- Modules may be marked. -/
  attempted : ∀ w attempted, R w { w with loader := { w.loader with attempted } }

namespace Frame.Registering

variable {α : Type} (hR : Frame.Registering R)

include hR

/-- Emitting an event stays within a frame that allows what modules change. -/
theorem within_emit (e : Event) : Within R (emit e) := (hR.heeds_emit e).within

/-- So does logging. -/
theorem within_log (level : Level) (source : LogSource) (message : String) :
    Within R (log level source message) := (hR.heeds_log level source message).within

/-! ## Registering -/

/-- Adding an entry, which may be refused, only changes what the registries hold. -/
theorem within_add (i : RegistryId) (e : Entry) : Within R (add i e) := by
  intro w
  refine hR.bind_at (hR.within_get w) fun x v hget => ?_
  cases hget
  split
  · rename_i rs hadd
    obtain ⟨j, -, rfl⟩ := Option.map_eq_some_iff.mp hadd
    exact hR.contents w _ rfl
  · exact hR.within_throw _ w

/-- Registering an entry only changes what the registries hold. -/
theorem within_register (i : RegistryId) (e : Entry) : Within R (register i e) := by
  intro w
  refine hR.bind_at (hR.within_get w) fun x v hget => ?_
  cases hget
  exact hR.bind_at (hR.contents w _ rfl) fun _ v _ => hR.within_add i _ v

/-- Removing a command only changes what the registries hold. -/
theorem within_unregister (i : RegistryId) (name : String) : Within R (unregister i name) :=
  fun w => hR.contents w _ rfl

/-- What is done in any case may follow an action. -/
theorem within_followedBy {a : Shell α} {last : Shell Unit} (ha : Within R a) (hlast : Within R last) :
    Within R (followedBy a last) := by
  refine hR.within_bind ?_ fun x => hR.within_bind hlast fun _ => hR.within_pure x
  exact hR.within_catch ha fun f => hR.within_bind hlast fun _ => hR.within_throw f

/-! ## Executing -/

/-- The actions of a module stay within the frame, one by one. -/
theorem within_runBody (body : List Action) : Within R (Module.runBody body) := by
  induction body with
  | nil => exact hR.within_pure _
  | cons action rest ih =>
    cases action with
    | raise r => exact hR.within_throw _
    | unknown name => exact hR.within_throw _
    | define d body => exact hR.within_bind (hR.within_register _ _) fun _ => ih
    | undefine name => exact hR.within_bind (hR.within_unregister _ _) fun _ => ih
    | _ => exact ih

/-- Running a module stays within the frame. -/
theorem within_runModule (m : Module) (directory : String) : Within R (m.run directory) := by
  cases m with
  | unreadable => exact hR.within_throw _
  | script body => exact hR.within_bind (hR.within_emit _) fun _ => hR.within_runBody body
  | builtin b =>
    refine hR.within_bind hR.within_get fun w => ?_
    have hcounted (n : Nat) : Within R (modify fun w => { w with imports := n } : Shell PUnit) :=
      fun w => hR.imports w n
    exact hR.within_bind (hcounted _) fun _ => hR.within_register _ _

/-- **Executing the file of a module** leaves the redirections. -/
theorem within_executeFile (file : Path) : Within R (executeFile file) := by
  refine hR.within_bind (heeds_absolutePath hR.toLogging file).within fun path => ?_
  refine hR.within_bind (Files.within_query hR.toFrame path _) fun r => ?_
  obtain ⟨place, content⟩ := r
  cases content with
  | code m => exact hR.within_runModule m _
  | bytes data => exact hR.within_pure _

end Frame.Registering

namespace Frame.Importing

variable {α : Type} (hR : Frame.Importing R)

include hR

/-! ## Importing -/

/-- An action may be redirected where redirections are allowed. -/
theorem within_redirected {a : Shell α} (ha : Within R a) (i target : RegistryId) :
    Within R (redirected i target a) := by
  refine hR.within_bind hR.within_get fun w => ?_
  have hset (g : World → Registries) :
      Within R (modify fun w => { w with registries := g w } : Shell PUnit) :=
    fun w => hR.registries w _
  exact hR.within_bind (hset _) fun _ => hR.within_followedBy ha (hset _)

/-- Importing a file, with its faults reported, stays within the frame. -/
theorem within_importFile (file : Path) : Within R (importFile file) := by
  refine hR.within_catch ?_ fun f => ?_
  · exact hR.within_bind (hR.within_executeFile file) fun _ => hR.within_pure _
  · split
    · exact hR.within_pure _
    · exact hR.within_throw f

end Frame.Importing

namespace Frame.Loading

variable {α : Type} (hR : Frame.Loading R)

include hR

/-- Importing a module and marking it stays within a frame that allows what the loader changes. -/
theorem within_importModule (key : String) (file : Path) :
    Within R (Loader.importModule key file) := by
  refine hR.within_bind hR.within_get fun w => ?_
  refine hR.within_bind (hR.within_redirected (hR.within_importFile file) _ _) fun failure => ?_
  have hmarked : Within R (modify fun w => { w with loader := { w.loader with
      attempted := w.loader.attempted ++ [key] } } : Shell PUnit) := fun w => hR.attempted w _
  refine hR.within_bind hmarked fun _ => ?_
  split
  · exact hR.within_bind (hR.within_log _ _ _) fun _ => hR.within_pure _
  · exact hR.within_bind (hR.within_log _ _ _) fun _ => hR.within_pure _

/-! ## Loading -/

/-- **Loading the module of a name** stays within what loading may touch. -/
theorem within_load (name : String) : Within R (Loader.load name) := by
  refine hR.within_bind hR.within_get fun w => ?_
  split
  · exact hR.within_pure _
  · refine hR.within_bind (Loader.heeds_index hR.toLogging).within fun index => ?_
    split
    · exact hR.within_log _ _ _
    · exact hR.within_bind (hR.within_importModule _ _) fun _ => hR.within_pure _

/-- So does importing all modules that were found. -/
theorem within_loadFound (verbose : Bool) (found : List (String × Path)) :
    Within R (Loader.loadFound verbose found) := by
  induction found with
  | nil => exact hR.within_pure _
  | cons entry rest ih =>
    refine hR.within_bind hR.within_get fun w => ?_
    split
    · exact ih
    · refine hR.within_bind (hR.within_importModule _ _) fun succeeded => ?_
      have hmore : Within R (Loader.loadFound verbose rest >>= fun more =>
          pure (if succeeded then more + 1 else more)) := hR.within_bind ih fun _ => hR.within_pure _
      dsimp only
      split
      · exact hR.within_bind (hR.within_log _ _ _) fun _ => hmore
      · exact hmore

/-- **Loading all modules** stays within what loading may touch. -/
theorem within_loadAll (verbose : Bool) : Within R (Loader.loadAll verbose) :=
  hR.within_bind (Loader.heeds_index hR.toLogging).within fun _ => hR.within_loadFound verbose _

end Frame.Loading

/-! ## Faults -/

/-- Anything may happen. -/
theorem reporting_any : Frame.Reporting fun _ _ => True where
  refl _ := trivial
  trans _ _ := trivial
  emitted _ _ := trivial

variable {α : Type}

/-- Logging ends with no fault at all, and so with none of an unknown command. -/
theorem faults_log (level : Level) (source : LogSource) (message : String) :
    Faults (fun f => f.isUnknown = false) (log level source message) :=
  (reporting_any.heeds_log level source message).faults

/-- Adding an entry never ends with an unknown command. -/
theorem faults_add (i : RegistryId) (e : Entry) : Faults (fun f => f.isUnknown = false) (add i e) := by
  apply faults_bind reporting_any.heeds_get.faults
  intro w
  split
  · exact faults_modify _
  · exact faults_throw rfl

/-- Neither does registering one. -/
theorem faults_register (i : RegistryId) (e : Entry) :
    Faults (fun f => f.isUnknown = false) (register i e) := by
  apply faults_bind reporting_any.heeds_get.faults
  intro w
  exact faults_bind (faults_modify _) fun _ => faults_add _ _

/-- If neither of two actions ends with an unknown command, doing the second in any case does not either.
-/
theorem faults_followedBy {a : Shell α} {last : Shell Unit}
    (ha : Faults (fun f => f.isUnknown = false) a)
    (hlast : Faults (fun f => f.isUnknown = false) last) :
    Faults (fun f => f.isUnknown = false) (followedBy a last) := by
  -- A fault of the action comes out again behind the other action.
  have hagain (f : Fault) (hf : f.isUnknown = false) : Faults (fun f => f.isUnknown = false)
      (last >>= fun _ => throw f : Shell α) := faults_bind hlast fun _ => faults_throw hf
  exact faults_bind (faults_catch ha hagain) fun x => faults_bind hlast fun _ => faults_pure x

/-- A redirection brings no fault of an unknown command. -/
theorem faults_redirected {a : Shell α} (ha : Faults (fun f => f.isUnknown = false) a)
    (i target : RegistryId) : Faults (fun f => f.isUnknown = false) (redirected i target a) := by
  apply faults_bind reporting_any.heeds_get.faults
  intro w
  have hset (g : World → Registries) : Faults (fun f => f.isUnknown = false)
      (modify fun w => { w with registries := g w } : Shell PUnit) := faults_modify _
  exact faults_bind (hset _) fun _ => faults_followedBy ha (hset _)

end Shell

/-- A fault that is not ordinary is not that of an unknown command. -/
theorem Fault.isUnknown_of_escapes {f : Fault} (h : f.isOrdinary = false) : f.isUnknown = false := by
  cases f with
  | unknownCommand name => exact nomatch h
  | _ => rfl

/-- Only what is not ordinary escapes from an import. -/
theorem escapes_importFile (file : Path) :
    Shell.Faults (fun f => f.isOrdinary = false) (importFile file) := by
  intro w f w' hrun
  unfold importFile Shell.recover at hrun
  generalize hbody : (executeFile file >>= fun _ => pure none : Shell (Option String)) = body at hrun
  cases hfirst : body.run w with
  | ok x w₁ =>
    rw [Shell.run_catch_ok hfirst] at hrun
    exact nomatch hrun
  | error f₁ w₁ =>
    rw [Shell.run_catch_error hfirst] at hrun
    split at hrun
    · exact nomatch hrun
    · rename_i hescapes
      cases hrun
      exact Bool.eq_false_iff.mpr hescapes

/-- What escapes from an import says nothing about commands: a module that misses a command is
reported. -/
theorem faults_importFile (file : Path) :
    Shell.Faults (fun f => f.isUnknown = false) (importFile file) :=
  fun w f w' hrun => Fault.isUnknown_of_escapes (escapes_importFile file w f w' hrun)

namespace Loader

/-- Importing a module never ends with an unknown command: such a fault of the module is ordinary, and is
reported. -/
theorem faults_importModule (key : String) (file : Path) :
    Shell.Faults (fun f => f.isUnknown = false) (importModule key file) := by
  have hR := Shell.reporting_any
  apply Shell.faults_bind hR.heeds_get.faults
  intro w
  apply Shell.faults_bind (Shell.faults_redirected (faults_importFile file) _ _)
  intro failure
  refine Shell.faults_bind (Shell.faults_modify _) fun _ => ?_
  split
  · exact Shell.faults_bind (Shell.faults_log _ _ _) fun _ => Shell.faults_pure _
  · exact Shell.faults_bind (Shell.faults_log _ _ _) fun _ => Shell.faults_pure _

/-- **Loading the module of a name** never misses a command. -/
theorem faults_load (name : String) : Shell.Faults (fun f => f.isUnknown = false) (load name) := by
  have hR := Shell.reporting_any
  apply Shell.faults_bind hR.heeds_get.faults
  intro w
  split
  · exact Shell.faults_pure _
  · apply Shell.faults_bind (heeds_index hR.toLogging).faults
    intro t
    split
    · exact Shell.faults_log _ _ _
    · exact Shell.faults_bind (faults_importModule _ _) fun _ => Shell.faults_pure _

/-- Neither does importing all modules that were found. -/
theorem faults_loadFound (verbose : Bool) (found : List (String × Path)) :
    Shell.Faults (fun f => f.isUnknown = false) (loadFound verbose found) := by
  induction found with
  | nil => exact Shell.faults_pure _
  | cons entry rest ih =>
    apply Shell.faults_bind Shell.reporting_any.heeds_get.faults
    intro w
    split
    · exact ih
    · refine Shell.faults_bind (faults_importModule _ _) fun succeeded => ?_
      have hmore : Shell.Faults (fun f => f.isUnknown = false) (loadFound verbose rest >>= fun more =>
          pure (if succeeded then more + 1 else more)) :=
        Shell.faults_bind ih fun _ => Shell.faults_pure _
      dsimp only
      split
      · exact Shell.faults_bind (Shell.faults_log _ _ _) fun _ => hmore
      · exact hmore

/-- **Loading all modules** never misses a command. -/
theorem faults_loadAll (verbose : Bool) :
    Shell.Faults (fun f => f.isUnknown = false) (loadAll verbose) :=
  Shell.faults_bind (heeds_index Shell.reporting_any.toLogging).faults fun _ => faults_loadFound verbose _

end Loader

end CommandShell
