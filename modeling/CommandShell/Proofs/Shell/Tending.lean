import CommandShell.Builtin
import CommandShell.Proofs.Shell.Heeds

/-! # What the commands that come with the shell tend to

The commands that come with the shell print, change files, settings and the working directory, and remember
where they were. A relation that allows this is a `Frame.Tending`. Whatever reads and writes settings heeds
it, and so do these commands (`Builtin.heeds_call`), but for the one that loads modules, which heeds what
loading them does (`Builtin.heeds_showHelp`). -/

namespace CommandShell

/-- A frame that allows what the commands that come with the shell change. -/
structure Shell.Frame.Tending (R : World → World → Prop) : Prop extends Shell.Frame.Printing R where
  /-- Files may change. -/
  files : ∀ w files, R w { w with files }
  /-- The working directory may change. -/
  cwd : ∀ w cwd, R w { w with cwd }
  /-- So may what is remembered of working directories. -/
  previous : ∀ w previous, R w { w with previous }
  /-- Settings may change. -/
  settings : ∀ w settings, R w { w with settings }

variable {R : World → World → Prop}

section

variable (hR : Shell.Frame.Tending R)

include hR

namespace Files

/-- Changing files heeds a frame that allows it. -/
theorem heeds_change (path : Path)
    (q : FileTree → WorkingDirectory → String → Except Errno FileTree) :
    Shell.Heeds R (change path q) := by
  exact hR.heeds_bind (heeds_query hR.toFrame path q) fun files =>
    Shell.Frame.heeds_modify fun w => hR.files w _

/-- So does making a directory. -/
theorem heeds_makeDirectory (path : Path) : Shell.Heeds R (makeDirectory path) := by
  have hthere (f : Fault) (hf : f.isUnknown = false) : Shell.Heeds R (do
      if ← isDirectory path then pure () else throw f) := by
    refine hR.heeds_bind (heeds_ask hR.toFrame _ _) fun there => ?_
    split
    · exact hR.heeds_pure _
    · exact hR.heeds_throw hf
  refine hR.heeds_catch (heeds_change hR path _) (fun f hf => ?_) fun f => ?_
  · split
    · exact hR.heeds_throw rfl
    · exact hthere _ rfl
    · exact hR.heeds_throw hf
  · split
    · exact hR.within_throw _
    · exact (hthere _ rfl).within
    · exact hR.within_throw _

/-- So does making a directory with those above it. -/
theorem heeds_makeDirectories (path : Path) : Shell.Heeds R (makeDirectories path) := by
  unfold makeDirectories
  -- The recovery makes the directories above, whose paths are shorter.
  have habove (f : Fault) (hf : f.isUnknown = false) : Shell.Heeds R
      (if _h : path.parts = [] then throw f else do
        makeDirectories path.parent
        makeDirectory path) := by
    split
    · exact hR.heeds_throw hf
    · rename_i hparts
      have hshorter : path.parent.parts.length < path.parts.length := by
        have := List.length_pos_iff.mpr hparts
        simp only [Path.parent, List.length_dropLast]
        omega
      exact hR.heeds_bind (heeds_makeDirectories path.parent) fun _ => heeds_makeDirectory hR path
  refine hR.heeds_catch (heeds_makeDirectory hR path) (fun f hf => ?_) fun f => ?_
  · split
    · exact habove _ rfl
    · exact hR.heeds_throw hf
  · split
    · exact (habove _ rfl).within
    · exact hR.within_throw _
termination_by path.parts.length

end Files

/-! ## Settings -/

namespace SettingsFile

/-- Finding the directory of the settings misses no command. -/
theorem heeds_directory : Shell.Heeds R directory :=
  hR.heeds_bind hR.heeds_get fun _ => hR.heeds_pure _

/-- Finding the settings file misses no command. -/
theorem heeds_path : Shell.Heeds R path :=
  hR.heeds_bind (heeds_directory hR) fun _ => hR.heeds_pure _

omit hR in
/-- Bytes on which the reader gives up do not say that a command is unknown. -/
theorem isUnknown_of_parse {data : List UInt8} {f : Fault} (h : parse data = .error f) :
    f.isUnknown = false := by
  unfold parse at h
  split at h
  · cases h
    rfl
  · simp only at h
    split at h
    · exact nomatch h
    · exact nomatch h
    · cases h
      rfl
    · cases h
      rfl

/-- Reading the settings file misses no command. -/
theorem heeds_readRaw : Shell.Heeds R readRaw := by
  refine hR.heeds_bind (heeds_path hR) fun p => ?_
  have hread : Shell.Heeds R (tryCatch (some <$> Files.readBytes p) noneIfMissing) := by
    refine hR.heeds_catch (hR.heeds_map some (Files.heeds_readBytes hR.toFrame p)) ?_ ?_
    · intro f hf
      unfold noneIfMissing
      split
      · exact hR.heeds_pure none
      · exact hR.heeds_throw hf
    · intro f
      unfold noneIfMissing
      split
      · exact hR.within_pure none
      · exact hR.within_throw f
  refine hR.heeds_bind hread fun data? => ?_
  split
  · exact hR.heeds_pure _
  · refine hR.heeds_bind (hR.heeds_ofExcept fun f => isUnknown_of_parse) fun r => ?_
    split
    · exact hR.heeds_pure _
    · exact hR.heeds_bind (hR.heeds_log _ _ _) fun _ => hR.heeds_pure _

/-- Writing it misses no command. -/
theorem heeds_writeRaw (j : Json) : Shell.Heeds R (writeRaw j) := by
  refine hR.heeds_bind (heeds_directory hR) fun d => ?_
  refine hR.heeds_bind (Files.heeds_makeDirectories hR d) fun _ => hR.heeds_bind (heeds_path hR) fun p => ?_
  exact hR.heeds_bind (Files.heeds_change hR p _) fun _ => hR.heeds_pure _

/-- Loading settings, with a file made if asked for, misses no command. -/
theorem heeds_load (create : Bool) : Shell.Heeds R (load create) := by
  refine hR.heeds_bind (heeds_path hR) fun p => ?_
  refine hR.heeds_bind (Files.heeds_ask hR.toFrame _ _) fun there => ?_
  split
  · refine hR.heeds_bind (heeds_readRaw hR) fun j => ?_
    split
    · exact hR.heeds_pure _
    · exact hR.heeds_bind (hR.heeds_log _ _ _) fun _ => hR.heeds_pure _
  · split
    · refine hR.heeds_bind ?_ fun _ => hR.heeds_pure _
      exact hR.heeds_bind hR.heeds_get fun _ => heeds_writeRaw hR _
    · exact hR.heeds_pure _

end SettingsFile

namespace Manager

/-- Asking a manager for its settings misses no command. -/
theorem heeds_config (m : ManagerId) : Shell.Heeds R (config m) := by
  refine hR.heeds_bind hR.heeds_get fun w => ?_
  split
  · exact hR.heeds_pure _
  · refine hR.heeds_bind (SettingsFile.heeds_load hR true) fun c => ?_
    exact hR.heeds_bind (Shell.Frame.heeds_modify fun w => hR.settings w _)
      fun _ => hR.heeds_pure _

/-- Neither does a key that is no setting: its fault is another one. -/
theorem heeds_setting (key : String) : Shell.Heeds R (setting key) := by
  unfold setting
  split
  · exact hR.heeds_pure _
  · exact hR.heeds_throw rfl

/-- Writing the settings of a manager misses no command. -/
theorem heeds_writeGiven (m : ManagerId) : Shell.Heeds R (writeGiven m) := by
  refine hR.heeds_bind (SettingsFile.heeds_readRaw hR) fun j => ?_
  split
  · exact hR.heeds_throw rfl
  · exact hR.heeds_bind (heeds_config hR m) fun _ => SettingsFile.heeds_writeRaw hR _

/-- Saving settings misses no command. -/
theorem heeds_save (m : ManagerId) (given : Option Settings) : Shell.Heeds R (save m given) := by
  unfold save
  split
  · exact hR.heeds_bind (Shell.Frame.heeds_modify fun w => hR.settings w _) fun _ =>
      heeds_writeGiven hR m
  · exact heeds_writeGiven hR m

/-- Setting a key misses no command, whether or not the value is accepted. -/
theorem heeds_setKey (m : ManagerId) (key : String) (value : Json) :
    Shell.Heeds R (set m key value) := by
  refine hR.heeds_bind (heeds_setting hR key) fun _ => ?_
  refine hR.heeds_bind (SettingsFile.heeds_load hR true) fun c => ?_
  refine hR.heeds_bind (hR.heeds_ofExcept fun _ _ => rfl) fun c => ?_
  exact hR.heeds_bind (heeds_save hR m _) fun _ => hR.heeds_pure _

/-- Unsetting a key misses no command. -/
theorem heeds_unset (m : ManagerId) (key : String) : Shell.Heeds R (unset m key) := by
  refine hR.heeds_bind (heeds_setting hR key) fun _ => ?_
  refine hR.heeds_bind (SettingsFile.heeds_readRaw hR) fun j => ?_
  split
  · exact hR.heeds_throw rfl
  · split
    · exact hR.heeds_throw rfl
    · refine hR.heeds_bind (SettingsFile.heeds_writeRaw hR _) fun _ => ?_
      exact Shell.Frame.heeds_modify fun w => hR.settings w _

/-- Getting a value misses no command. -/
theorem heeds_getKey (m : ManagerId) (key : String) (otherwise : Json) :
    Shell.Heeds R (getKey m key otherwise) := by
  refine hR.heeds_bind (heeds_config hR m) fun c => ?_
  split
  · exact hR.heeds_bind hR.heeds_get fun _ => hR.heeds_pure _
  · exact hR.heeds_pure _

end Manager

end

/-! ## Commands that come with the shell -/

namespace Builtin

/-- The command that changes the directory prints, and changes nothing but the working directory and what
it remembers. -/
theorem heeds_changeDirectory (hR : Shell.Frame.Printing R)
    (hcwd : ∀ w cwd, R w { w with cwd }) (hprevious : ∀ w previous, R w { w with previous })
    (origin : Nat) (arguments : List String) : Shell.Heeds R (changeDirectory origin arguments) := by
  have hgo (target : String) : Shell.Heeds R (changeDirectory.go origin target) := by
    refine hR.heeds_bind hR.heeds_get fun w => ?_
    have hleave (path : Path) : Shell.Heeds R (do
        let left ← Files.currentDirectory
        Files.changeDirectory path
        modify fun w => { w with previous := w.previous.put origin left }) := by
      refine hR.heeds_bind (Files.heeds_currentDirectory hR.toFrame) fun left => ?_
      refine hR.heeds_bind ?_ fun _ => Shell.Frame.heeds_modify fun w => hprevious w _
      exact hR.heeds_bind (Files.heeds_query hR.toFrame path _) fun cwd =>
        Shell.Frame.heeds_modify fun w => hcwd w cwd
    split
    · exact hR.heeds_bind (hR.heeds_pure _) hleave
    · exact hR.heeds_bind (Files.heeds_expandHome hR.toFrame _) hleave
  refine hR.heeds_bind hR.heeds_get fun w => ?_
  dsimp only
  split
  · exact hR.heeds_printLine _
  · exact hR.heeds_bind (hR.heeds_printLine _) fun _ => hgo _
  · exact hgo _

/-- The help loads all modules and prints. -/
theorem heeds_showHelp (hR : Shell.Frame.Printing R)
    (hload : Shell.Heeds R (Loader.loadAll false)) : Shell.Heeds R showHelp := by
  refine hR.heeds_bind hR.heeds_get fun w => ?_
  have hprint : Shell.Heeds R (do
      Shell.printLine "\nCommands:"
      ((← get).registries.get w.context.registry).all.forM fun e => Shell.printLine (helpLine e)
      Shell.printLine (commandLine "!<cmd>" "Run shell command")
      Shell.printLine (commandLine "<a>; <b>" "Run several commands in order")
      Shell.printLine "") := by
    refine hR.heeds_bind (hR.heeds_printLine _) fun _ => hR.heeds_bind hR.heeds_get fun _ => ?_
    refine hR.heeds_bind (hR.heeds_forM fun _ _ => hR.heeds_printLine _) fun _ => ?_
    exact hR.heeds_bind (hR.heeds_printLine _) fun _ =>
      hR.heeds_bind (hR.heeds_printLine _) fun _ => hR.heeds_printLine _
  dsimp only
  split
  · exact hR.heeds_bind hload fun _ => hprint
  · exact hprint

section

variable (hR : Shell.Frame.Tending R)

include hR

/-- Showing all settings misses no command. -/
theorem heeds_showSettings : Shell.Heeds R showSettings := by
  refine hR.heeds_bind (Manager.heeds_config hR _) fun c => ?_
  refine hR.heeds_bind (SettingsFile.heeds_path hR) fun path => ?_
  refine hR.heeds_bind hR.heeds_get fun w => hR.heeds_bind (hR.heeds_printLine _) fun _ => ?_
  exact hR.heeds_bind (hR.heeds_forM fun _ _ => hR.heeds_printLine _) fun _ => hR.heeds_printLine _

/-- The command for settings misses no command, whatever its arguments are. -/
theorem heeds_configure (arguments : List String) : Shell.Heeds R (configure arguments) := by
  unfold configure
  split
  · exact heeds_showSettings hR
  · rename_i key word words
    -- A bad value is reported; nothing else is caught.
    have hset : Shell.Heeds R (Shell.recover Fault.isValue
        (do
          Manager.set sharedManager key (.str (" ".intercalate (word :: words)))
          pure true)
        fun f => do
          Shell.printLine ("Error: " ++ f.message)
          pure false) := by
      refine hR.heeds_recover ?_ fun f => hR.heeds_bind (hR.heeds_printLine _) fun _ => hR.heeds_pure _
      exact hR.heeds_bind (Manager.heeds_setKey hR _ _ _) fun _ => hR.heeds_pure _
    refine hR.heeds_bind hset fun done => ?_
    split
    · exact hR.heeds_bind (Manager.heeds_getKey hR _ _ _) fun _ => hR.heeds_printLine _
    · exact hR.heeds_pure _
  · exact hR.heeds_printLine _
  · split
    · split
      · exact hR.heeds_printLine _
      · refine hR.heeds_recover ?_ fun f => hR.heeds_printLine _
        exact hR.heeds_bind (Manager.heeds_unset hR _ _) fun _ => hR.heeds_printLine _
    · exact hR.heeds_bind (hR.heeds_printLine _) fun _ => hR.heeds_printLine _

/-- Printing numbered entries misses no command. -/
theorem heeds_printNumbered (number : Nat) (es : List String) :
    Shell.Heeds R (printNumbered number es) := by
  induction es generalizing number with
  | nil => exact hR.heeds_pure _
  | cons e es ih => exact hR.heeds_bind (hR.heeds_printLine _) fun _ => ih (number + 1)

/-- The command for the history misses no command, whatever its arguments are. -/
theorem heeds_showHistory (arguments : List String) : Shell.Heeds R (showHistory arguments) := by
  refine hR.heeds_bind (heeds_historyEntries hR.toFrame) fun es => ?_
  split
  · exact heeds_printNumbered hR 1 es
  · rename_i count _
    have hcount : Shell.Heeds R (countOf count) := by
      unfold countOf
      split
      · exact hR.heeds_pure _
      · exact hR.heeds_throw rfl
      · exact hR.heeds_throw rfl
    refine hR.heeds_bind hcount fun n => ?_
    split
    · exact hR.heeds_printLine _
    · exact heeds_printNumbered hR _ _

/-- **A command that comes with the shell**, other than the one that loads modules, heeds what it tends
to. -/
theorem heeds_call {b : Builtin} (hb : b ≠ .help) (origin : Nat) (arguments : List String) :
    Shell.Heeds R (b.call origin arguments) := by
  have hreturn {a : Shell Unit} (value : Json) (h : Shell.Heeds R a) :
      Shell.Heeds R (a >>= fun _ => pure value) := hR.heeds_bind h fun _ => hR.heeds_pure value
  cases b with
  | help => exact absurd rfl hb
  | cd => exact hreturn _ (heeds_changeDirectory hR.toPrinting hR.cwd hR.previous origin arguments)
  | config => exact hreturn _ (heeds_configure hR arguments)
  | echo => exact hreturn _ (hR.heeds_printLine _)
  | history => exact hreturn _ (heeds_showHistory hR arguments)
  | pwd =>
    exact hreturn _ (hR.heeds_bind (Files.heeds_currentDirectory hR.toFrame) fun _ =>
      hR.heeds_printLine _)
  | quit => exact hreturn _ (hR.heeds_printLine _)

end

end Builtin

end CommandShell
