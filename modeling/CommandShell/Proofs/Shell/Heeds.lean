import CommandShell.Host
import CommandShell.History.Basic
import CommandShell.Loader
import CommandShell.Proofs.Files.Actions

/-! # Actions that miss no command

An action **heeds** a relation between worlds if it stays within it and none of its faults says that a
command is unknown. Actions that are put together from such actions heed the relation as well. What
only asks the world and logs heeds every relation that lets reports come to the trace (`Frame.Logging`),
what prints as well those that let lines come there (`Frame.Printing`), and what reaches the outside
otherwise those that let the trace grow (`Frame.Reporting`). -/

namespace CommandShell

/-- Whether a fault says that a command is unknown. -/
def Fault.isUnknown : Fault → Bool
  | .unknownCommand _ => true
  | _ => false

namespace Shell

variable {α β : Type} {R : World → World → Prop}

/-- An action stays within a relation, and none of its faults says that a command is unknown. -/
structure Heeds (R : World → World → Prop) (a : Shell α) : Prop where
  /-- It stays within the relation. -/
  within : Within R a
  /-- Its faults have other causes. -/
  faults : Faults (fun f => f.isUnknown = false) a

/-- An action stays within every wider relation. -/
theorem Within.mono {S : World → World → Prop} {a : Shell α} (h : Within R a)
    (hRS : ∀ {w w'}, R w w' → S w w') : Within S a := fun w => hRS (h w)

/-- After a recovery only the recovery's own faults are left. -/
theorem faults_catch {F : Fault → Prop} {a : Shell α} {recovery : Fault → Shell α}
    (ha : Faults F a) (hr : ∀ f, F f → Faults F (recovery f)) : Faults F (tryCatch a recovery) := by
  intro w f w' hrun
  cases hfirst : a.run w with
  | ok x w₁ =>
    rw [run_catch_ok hfirst] at hrun
    exact nomatch hrun
  | error f₁ w₁ =>
    rw [run_catch_error hfirst] at hrun
    exact hr f₁ (ha w f₁ w₁ hfirst) w₁ f w' hrun

/-- An action heeds a relation from one world. -/
structure HeedsAt (R : World → World → Prop) (w : World) (a : Shell α) : Prop where
  /-- It stays within the relation. -/
  within : R w (w.after a)
  /-- Its fault has another cause. -/
  faults : ∀ f w', a.run w = .error f w' → f.isUnknown = false

/-- What heeds a relation heeds it from every world. -/
theorem Heeds.at {a : Shell α} (h : Heeds R a) (w : World) : HeedsAt R w a := ⟨h.within w, h.faults w⟩

namespace Frame

variable (hR : Frame R)

include hR

/-- From one world, what follows has to heed the relation only where the first action comes to. -/
theorem heedsAt_bind {a : Shell α} {g : α → Shell β} {w : World} (ha : HeedsAt R w a)
    (hg : ∀ x w', a.run w = .ok x w' → HeedsAt R w' (g x)) : HeedsAt R w (a >>= g) where
  within := hR.bind_at ha.within fun x w' hrun => (hg x w' hrun).within
  faults f w' hrun := by
    cases hfirst : a.run w with
    | error f₁ w₁ =>
      rw [run_bind_error hfirst] at hrun
      cases hrun
      exact ha.faults f w' hfirst
    | ok x w₁ =>
      rw [run_bind_ok hfirst] at hrun
      exact (hg x w₁ hfirst).faults f w' hrun

/-- What only gives something heeds every frame. -/
theorem heeds_pure (x : α) : Heeds R (pure x : Shell α) := ⟨hR.within_pure x, faults_pure x⟩

/-- So does a fault that does not say that a command is unknown. -/
theorem heeds_throw {f : Fault} (h : f.isUnknown = false) : Heeds R (throw f : Shell α) :=
  ⟨hR.within_throw f, faults_throw h⟩

/-- Looking at the world heeds every frame. -/
theorem heeds_get : Heeds R (get : Shell World) := ⟨hR.within_get, fun _ _ _ h => nomatch h⟩

/-- Actions that heed a frame may follow each other. -/
theorem heeds_bind {a : Shell α} {g : α → Shell β} (ha : Heeds R a) (hg : ∀ x, Heeds R (g x)) :
    Heeds R (a >>= g) :=
  ⟨hR.within_bind ha.within fun x => (hg x).within,
    faults_bind ha.faults fun x => (hg x).faults⟩

/-- What is made of the result does not bear on what is heeded. -/
theorem heeds_map {a : Shell α} (g : α → β) (ha : Heeds R a) : Heeds R (g <$> a) := by
  rw [map_eq_pure_bind]
  exact hR.heeds_bind ha fun x => hR.heeds_pure (g x)

/-- An action heeds a frame with its recovery if the recovery does so behind every fault that may come to
it. -/
theorem heeds_catch {a : Shell α} {recovery : Fault → Shell α} (ha : Heeds R a)
    (hr : ∀ f, f.isUnknown = false → Heeds R (recovery f))
    (hany : ∀ f, Within R (recovery f)) : Heeds R (tryCatch a recovery) :=
  ⟨hR.within_catch ha.within hany, faults_catch ha.faults fun f hf => (hr f hf).faults⟩

/-- The same holds of a recovery from some faults: the others are passed on. -/
theorem heeds_recover {test : Fault → Bool} {a : Shell α} {recovery : Fault → Shell α}
    (ha : Heeds R a) (hr : ∀ f, Heeds R (recovery f)) : Heeds R (recover test a recovery) := by
  refine hR.heeds_catch ha (fun f hf => ?_) fun f => ?_
  · split
    · exact hr f
    · exact hR.heeds_throw hf
  · split
    · exact (hr f).within
    · exact hR.within_throw f

/-- A computation heeds every frame, unless its own fault says that a command is unknown. -/
theorem heeds_ofExcept {ε : Type} {fault : ε → Fault} {r : Except ε α}
    (h : ∀ e, r = .error e → (fault e).isUnknown = false) : Heeds R (ofExcept fault r) := by
  cases r with
  | ok x => exact hR.heeds_pure x
  | error e => exact hR.heeds_throw (h e rfl)

omit hR in
/-- A change heeds a frame that allows it. -/
theorem heeds_modify {g : World → World} (h : ∀ w, R w (g w)) :
    Heeds R (modify g : Shell PUnit) := ⟨h, faults_modify g⟩

omit hR in
/-- What is done with the present world is asked about at that world only. -/
theorem heeds_get_bind {g : World → Shell β} (hg : ∀ w, R w (w.after (g w)))
    (hf : ∀ w f w', (g w).run w = .error f w' → f.isUnknown = false) : Heeds R (get >>= g) :=
  ⟨hg, hf⟩

/-- A loop that gives something heeds a frame if each of its rounds does. -/
theorem heeds_mapM {l : List β} {f : β → Shell α} (h : ∀ x ∈ l, Heeds R (f x)) :
    Heeds R (l.mapM f) := by
  induction l with
  | nil =>
    rw [List.mapM_nil]
    exact hR.heeds_pure _
  | cons x l ih =>
    rw [List.mapM_cons]
    have htail := ih fun y hy => h y (List.mem_cons_of_mem _ hy)
    exact hR.heeds_bind (h x List.mem_cons_self) fun _ => hR.heeds_bind htail fun _ => hR.heeds_pure _

/-- So does a loop that gives nothing. -/
theorem heeds_forM {l : List β} {f : β → Shell PUnit} (h : ∀ x ∈ l, Heeds R (f x)) :
    Heeds R (l.forM f) := by
  induction l with
  | nil => exact hR.heeds_pure _
  | cons x l ih =>
    exact hR.heeds_bind (h x List.mem_cons_self) fun _ => ih fun y hy => h y (List.mem_cons_of_mem _ hy)

end Frame

/-! ## Asking and reporting -/

/-- A frame that lets reports come to the trace. -/
structure Frame.Logging (R : World → World → Prop) : Prop extends Frame R where
  /-- Reports may come to the trace. -/
  reported : ∀ w es, (∀ e ∈ es, e.isReport = true) → R w (World.emitted w es)

/-- Logging heeds every frame that lets reports come to the trace. -/
theorem Frame.Logging.heeds_log (hR : Frame.Logging R) (level : Level) (source : LogSource)
    (message : String) : Heeds R (log level source message) := by
  constructor
  · intro w
    rw [World.after_of_ok (run_log level source message w)]
    exact hR.reported w _ fun e he => World.isReport_of_mem_reports he
  · intro w f w' h
    rw [run_log] at h
    exact nomatch h

/-- A frame that lets reports and printed lines come to the trace. -/
structure Frame.Printing (R : World → World → Prop) : Prop extends Frame.Logging R where
  /-- Lines may come to the trace. -/
  printed : ∀ w text, R w (World.emitted w [.out text])

/-- Printing heeds every frame that lets lines come to the trace. -/
theorem Frame.Printing.heeds_printLine (hR : Frame.Printing R) (text : String) :
    Heeds R (printLine text) :=
  ⟨fun w => hR.printed w _, fun _ _ _ h => nomatch h⟩

/-- A frame that lets the trace grow. -/
structure Frame.Reporting (R : World → World → Prop) : Prop extends Frame.Logging R where
  /-- Events may come to the trace. -/
  emitted : ∀ w es, R w (World.emitted w es)
  reported := fun w es _ => emitted w es

/-- What lets the trace grow lets lines come there. -/
theorem Frame.Reporting.toPrinting (hR : Frame.Reporting R) : Frame.Printing R :=
  { hR.toLogging with printed := fun w _ => hR.emitted w _ }

/-- Any event heeds a frame that lets the trace grow. -/
theorem Frame.Reporting.heeds_emit (hR : Frame.Reporting R) (e : Event) : Heeds R (emit e) :=
  ⟨fun w => hR.emitted w [e], fun _ _ _ h => nomatch h⟩

end Shell

/-- Some reports came to the trace, and nothing else happened. -/
def World.OnlyReports (w w' : World) : Prop :=
  ∃ es : List Event, (∀ e ∈ es, e.isReport = true) ∧ w' = w.emitted es

/-- Reports leave the loader. -/
theorem World.OnlyReports.loader {w w' : World} (h : w.OnlyReports w') : w'.loader = w.loader := by
  obtain ⟨es, -, rfl⟩ := h
  rfl

/-- Reports may follow each other, and logging is no more than that. -/
theorem World.logging_onlyReports : Shell.Frame.Logging OnlyReports where
  refl w := ⟨[], by simp, (emitted_nil w).symm⟩
  trans := by
    rintro u v w ⟨es, hes, rfl⟩ ⟨fs, hfs, rfl⟩
    exact ⟨es ++ fs, List.forall_mem_append.mpr ⟨hes, hfs⟩, emitted_emitted u es fs⟩
  reported w es hes := ⟨es, hes, rfl⟩

namespace Files

variable {α : Type} {R : World → World → Prop}

/-- A text that names no file does not say that a command is unknown. -/
theorem isUnknown_of_fileName {t : RawText} {f : Fault} (h : fileName t = .error f) :
    f.isUnknown = false := by
  unfold fileName at h
  split at h
  · cases h
    rfl
  · simp only at h
    split at h
    · cases h
      rfl
    · exact nomatch h

section

variable (hR : Shell.Frame R)

include hR

/-- A query of the files misses no command. -/
theorem heeds_query (path : Path) (q : FileTree → WorkingDirectory → String → Except Errno α) :
    Shell.Heeds R (query path q) := by
  refine hR.heeds_bind (hR.heeds_ofExcept fun f => isUnknown_of_fileName) fun name => ?_
  exact hR.heeds_bind hR.heeds_get fun w => hR.heeds_ofExcept fun e _ => rfl

/-- A question about the files misses no command. -/
theorem heeds_ask (path : Path) (q : FileTree → WorkingDirectory → String → Except Errno Bool) :
    Shell.Heeds R (ask path q) := by
  unfold ask
  split
  · exact hR.heeds_pure false
  · refine hR.heeds_bind hR.heeds_get fun w => ?_
    split
    · exact hR.heeds_pure _
    · split
      · exact hR.heeds_pure _
      · exact hR.heeds_throw rfl

/-- Asking whether a path reaches anything misses no command. -/
theorem heeds_reaches (path : Path) : Shell.Heeds R (reaches path) := by
  refine hR.heeds_bind hR.heeds_get fun w => ?_
  split
  · exact hR.heeds_pure _
  · split
    · exact hR.heeds_pure _
    · exact hR.heeds_pure _

/-- Reading misses no command. -/
theorem heeds_readBytes (path : Path) : Shell.Heeds R (readBytes path) :=
  hR.heeds_bind (heeds_query hR path _) fun _ => hR.heeds_pure _

/-- Listing a directory misses no command. -/
theorem heeds_list (path : Path) : Shell.Heeds R (list path) :=
  hR.heeds_bind (heeds_query hR path _) fun _ =>
    hR.heeds_bind hR.heeds_get fun _ => hR.heeds_pure _

/-- Asking for the working directory misses no command. -/
theorem heeds_currentDirectory : Shell.Heeds R currentDirectory := by
  refine hR.heeds_bind hR.heeds_get fun w => ?_
  split
  · exact hR.heeds_pure _
  · exact hR.heeds_throw rfl

/-- Replacing a leading tilde misses no command, even if there is no such user. -/
theorem heeds_expandHome (path : Path) : Shell.Heeds R (expandHome path) := by
  unfold expandHome
  split
  · exact hR.heeds_pure path
  · rename_i user rest _
    refine hR.heeds_bind hR.heeds_get fun w => ?_
    refine hR.heeds_bind (hR.heeds_ofExcept fun f => isUnknown_of_fileName) fun user => ?_
    -- Either home is joined with what stands behind the user.
    have hjoin (home : String) : Shell.Heeds R
        (pure ((Path.ofString home).join ⟨"", rest⟩) : Shell Path) := hR.heeds_pure _
    split
    · exact hR.heeds_bind (hR.heeds_pure _) hjoin
    · split
      · exact hR.heeds_bind (hR.heeds_pure _) hjoin
      · exact hR.heeds_bind (hR.heeds_throw rfl) hjoin

end

end Files

section

variable {R : World → World → Prop} (hR : Shell.Frame.Reporting R)

include hR

/-- Probing only brings its event to the trace. -/
theorem Host.heeds_probe (name : String) : Shell.Heeds R (probe name) := by
  refine hR.heeds_bind hR.heeds_get fun w => ?_
  refine hR.heeds_bind (hR.heeds_emit _) fun _ => ?_
  split
  · exact hR.heeds_throw rfl
  · split
    · exact hR.heeds_bind (hR.heeds_log _ _ _) fun _ => hR.heeds_pure _
    · exact hR.heeds_bind (hR.heeds_log _ _ _) fun _ => hR.heeds_pure _

/-- Running a command on the host only brings its event to the trace. -/
theorem Host.heeds_run (command : String) : Shell.Heeds R (Host.run command) :=
  hR.heeds_bind (hR.heeds_log _ _ _) fun _ =>
    hR.heeds_bind (hR.heeds_emit _) fun _ => hR.heeds_bind hR.heeds_get fun _ => hR.heeds_pure _

end

/-- Reading the history misses no command. -/
theorem heeds_historyEntries {R : World → World → Prop} (hR : Shell.Frame R) :
    Shell.Heeds R historyEntries := by
  refine hR.heeds_bind hR.heeds_get fun w => ?_
  unfold History.entries
  split
  · exact hR.heeds_pure _
  · refine hR.heeds_bind (Files.heeds_reaches hR _) fun there => ?_
    split
    · exact hR.heeds_bind (Files.heeds_readBytes hR _) fun _ => hR.heeds_pure _
    · exact hR.heeds_pure _

/-! ## Looking for modules -/

section

variable {R : World → World → Prop} (hR : Shell.Frame.Logging R)

include hR

/-- Making a path absolute misses no command. -/
theorem heeds_absolutePath (path : Path) : Shell.Heeds R (absolutePath path) := by
  refine hR.heeds_bind hR.heeds_get fun w => ?_
  split
  · exact hR.heeds_pure _
  · exact hR.heeds_pure _

/-- Looking for the initial file at a path misses no command. -/
theorem heeds_initialFileAt (path : Path) : Shell.Heeds R (initialFileAt path) := by
  refine hR.heeds_bind (Files.heeds_ask hR.toFrame _ _) fun isDirectory => ?_
  split
  · exact hR.heeds_pure _
  · split
    · exact hR.heeds_pure _
    · refine hR.heeds_bind (Files.heeds_ask hR.toFrame _ _) fun there => ?_
      split
      · exact hR.heeds_pure _
      · exact hR.heeds_bind (hR.heeds_log _ _ _) fun _ => hR.heeds_pure _

/-- Looking for initial files misses no command. -/
theorem heeds_initialFiles (paths : List Path) : Shell.Heeds R (initialFiles paths) := by
  induction paths with
  | nil => exact hR.heeds_pure _
  | cons path rest ih =>
    exact hR.heeds_bind (heeds_initialFileAt hR path) fun _ =>
      hR.heeds_bind ih fun _ => hR.heeds_pure _

/-- Searching a directory, with a warning if it is none, misses no command. -/
theorem heeds_discover (directory : Path) : Shell.Heeds R (discover directory) := by
  refine hR.heeds_bind (Files.heeds_ask hR.toFrame _ _) fun there => ?_
  split
  · exact hR.heeds_pure _
  · refine hR.heeds_bind (Files.heeds_ask hR.toFrame _ _) fun isDirectory => ?_
    split
    · exact hR.heeds_bind (hR.heeds_log _ _ _) fun _ => hR.heeds_pure _
    · exact hR.heeds_bind (Files.heeds_list hR.toFrame _) fun paths => heeds_initialFiles hR paths

/-- Searching all directories misses no command. -/
theorem Loader.heeds_index : Shell.Heeds R Loader.index :=
  hR.heeds_bind hR.heeds_get fun _ =>
    hR.heeds_bind (hR.heeds_mapM fun d _ => heeds_discover hR d) fun _ => hR.heeds_pure _

/-- Listing the modules misses no command. -/
theorem Loader.heeds_available : Shell.Heeds R Loader.available :=
  hR.heeds_bind (Loader.heeds_index hR) fun _ => hR.heeds_pure _

/-- Looking a name up, found or not, misses no command: the fault of a dangling alias is another one. -/
theorem Shell.heeds_lookup (i : RegistryId) (name : String) : Shell.Heeds R (lookup i name) :=
  hR.heeds_bind hR.heeds_get fun _ => hR.heeds_ofExcept fun _ _ => rfl

end

end CommandShell
