import CommandShell.Builtin
import CommandShell.Proofs.Loader.Routine

/-! # The commands that come with the shell are routine

So is whatever they do: reading the history, and reading and writing settings. None of it records an
entry, and none of its faults escapes from the shell. -/

namespace CommandShell

open Shell

variable {α : Type} {K : Prop} {Own : Shell Unit → Prop}

/-- Printing a line is routine, since no entry comes to the trace. -/
theorem routine_printLine (text : String) : Routine K Own (printLine text) := .tell rfl

/-- Reading the history is routine. -/
theorem routine_historyEntries : Routine K Own historyEntries := by
  refine .look (fun _ _ => rfl) fun w _ => ?_
  unfold History.entries
  split
  · exact .pure _
  · refine .bind (Files.routine_reaches _) fun there => ?_
    split
    · exact .bind (Files.routine_readBytes _) fun _ => .pure _
    · exact .pure _

/-! ## Settings -/

/-- What managers have in memory may change. -/
theorem routine_settings (g : Table Nat Settings → Table Nat Settings) :
    Routine K Own (modify fun w => { w with settings := g w.settings }) :=
  .change ⟨⟨fun _ _ => rfl, fun _ => rfl⟩, fun _ => rfl, fun _ => rfl,
    fun _ _ hw => ⟨hw.registries, hw.files⟩⟩

namespace SettingsFile

/-- Finding the directory of the settings is routine. -/
theorem routine_directory : Routine K Own directory := .look (fun _ _ => rfl) fun _ _ => .pure _

/-- Finding the settings file is routine. -/
theorem routine_path : Routine K Own path := .bind routine_directory fun _ => .pure _

/-- The fault of a text on which the reader gives up is ordinary. -/
theorem isOrdinary_of_parse {data : List UInt8} {f : Fault} (h : parse data = .error f) :
    f.isOrdinary = true := by
  unfold parse at h
  split at h
  · cases h
    rfl
  · simp only at h
    split at h
    · exact nomatch h
    · exact nomatch h
    · cases h
      rfl
    · cases h
      rfl

/-- Reading the settings file is routine. -/
theorem routine_readRaw : Routine K Own readRaw := by
  refine .bind routine_path fun p => ?_
  have hread : Routine K Own (tryCatch (some <$> Files.readBytes p) noneIfMissing) := by
    refine .catch (.map some (Files.routine_readBytes p)) fun f hf => ?_
    unfold noneIfMissing
    split
    · exact .pure none
    · exact .throw hf
  refine .bind hread fun data? => ?_
  split
  · exact .pure _
  · refine .bind (.ofExcept fun f hf _ => isOrdinary_of_parse hf) fun r => ?_
    split
    · exact .pure _
    · exact .bind (.log _ _ _) fun _ => .pure _

/-- Writing the settings file is routine. -/
theorem routine_writeRaw (j : Json) : Routine K Own (writeRaw j) := by
  refine .bind routine_directory fun d => ?_
  refine .bind (Files.routine_makeDirectories d) fun _ => .bind routine_path fun p => ?_
  exact .bind (Files.routine_writeBytes p _) fun _ => .pure _

/-- Loading settings is routine. -/
theorem routine_load (create : Bool) : Routine K Own (load create) := by
  refine .bind routine_path fun p => .bind (Files.routine_ask _ _) fun there => ?_
  split
  · refine .bind routine_readRaw fun j => ?_
    split
    · exact .pure _
    · exact .bind (.log _ _ _) fun _ => .pure _
  · split
    · refine .bind ?_ fun _ => .pure _
      exact .look (fun _ _ => rfl) fun _ _ => routine_writeRaw _
    · exact .pure _

end SettingsFile

namespace Manager

/-- Asking a manager for its settings is routine. -/
theorem routine_config (m : ManagerId) : Routine K Own (config m) := by
  refine .look (fun _ _ => rfl) fun w _ => ?_
  split
  · exact .pure _
  · refine .bind (SettingsFile.routine_load true) fun c => ?_
    exact .bind (routine_settings fun t => t.put m c) fun _ => .pure _

/-- Looking up a setting by its key is routine: the fault of an unknown key is ordinary. -/
theorem routine_setting (key : String) : Routine K Own (setting key) := by
  unfold setting
  split
  · exact .pure _
  · exact .throw fun _ => rfl

/-- Writing the settings of a manager is routine. -/
theorem routine_writeGiven (m : ManagerId) : Routine K Own (writeGiven m) := by
  refine .bind SettingsFile.routine_readRaw fun j => ?_
  split
  · exact .throw fun _ => rfl
  · exact .bind (routine_config m) fun _ => SettingsFile.routine_writeRaw _

/-- Saving settings is routine. -/
theorem routine_save (m : ManagerId) (given : Option Settings) : Routine K Own (save m given) := by
  unfold save
  split
  · exact .bind (routine_settings fun t => t.put m _) fun _ => routine_writeGiven m
  · exact routine_writeGiven m

/-- Setting a key is routine, also if the value is refused. -/
theorem routine_set (m : ManagerId) (key : String) (value : Json) :
    Routine K Own (set m key value) := by
  refine .bind (routine_setting key) fun _ => .bind (SettingsFile.routine_load true) fun c => ?_
  refine .bind (.ofExcept fun _ _ _ => rfl) fun c => ?_
  exact .bind (routine_save m _) fun _ => .pure _

/-- Unsetting a key is routine. -/
theorem routine_unset (m : ManagerId) (key : String) : Routine K Own (unset m key) := by
  refine .bind (routine_setting key) fun _ => .bind SettingsFile.routine_readRaw fun j => ?_
  split
  · exact .throw fun _ => rfl
  · split
    · exact .throw fun _ => rfl
    · exact .bind (SettingsFile.routine_writeRaw _) fun _ => routine_settings fun t => t.remove m

/-- Getting a value by its key is routine. -/
theorem routine_getKey (m : ManagerId) (key : String) (otherwise : Json) :
    Routine K Own (getKey m key otherwise) := by
  refine .bind (routine_config m) fun c => ?_
  split
  · exact .look (fun _ _ => rfl) fun _ _ => .pure _
  · exact .pure _

end Manager

/-! ## Commands that come with the shell -/

namespace Builtin

/-- Changing the working directory, and remembering the old one, is routine. -/
theorem routine_changeDirectory (origin : Nat) (arguments : List String) :
    Routine K Own (changeDirectory origin arguments) := by
  have hgo (target : String) : Routine K Own (changeDirectory.go origin target) := by
    have hleave (path : Path) : Routine K Own (do
        let left ← Files.currentDirectory
        Files.changeDirectory path
        modify fun w => { w with previous := w.previous.put origin left }) := by
      refine .bind Files.routine_currentDirectory fun left => ?_
      refine .bind (Files.routine_changeDirectory path) fun _ => ?_
      exact .change ⟨⟨fun _ _ => rfl, fun _ => rfl⟩, fun _ => rfl, fun _ => rfl,
        fun _ _ hw => ⟨hw.registries, hw.files⟩⟩
    refine .look (fun _ _ => rfl) fun w _ => ?_
    split
    · exact .bind (.pure _) hleave
    · exact .bind (Files.routine_expandHome _) hleave
  refine .look (fun _ _ => rfl) fun w _ => ?_
  dsimp only
  split
  · exact routine_printLine _
  · exact .bind (routine_printLine _) fun _ => hgo _
  · exact hgo _

/-- Showing all settings is routine. -/
theorem routine_showSettings : Routine K Own showSettings := by
  refine .bind (Manager.routine_config _) fun c => .bind SettingsFile.routine_path fun path => ?_
  refine .look (fun _ _ => rfl) fun w _ => .bind (routine_printLine _) fun _ => ?_
  exact .bind (.forM fun _ _ => routine_printLine _) fun _ => routine_printLine _

/-- The command for settings is routine. -/
theorem routine_configure (arguments : List String) : Routine K Own (configure arguments) := by
  unfold configure
  split
  · exact routine_showSettings
  · refine .bind (.recover ?_ fun f => .bind (routine_printLine _) fun _ => .pure _) fun done => ?_
    · exact .bind (Manager.routine_set _ _ _) fun _ => .pure _
    · split
      · exact .bind (Manager.routine_getKey _ _ _) fun _ => routine_printLine _
      · exact .pure _
  · exact routine_printLine _
  · split
    · split
      · exact routine_printLine _
      · refine .recover ?_ fun f => routine_printLine _
        exact .bind (Manager.routine_unset _ _) fun _ => routine_printLine _
    · exact .bind (routine_printLine _) fun _ => routine_printLine _

/-- Printing numbered entries is routine. -/
theorem routine_printNumbered (number : Nat) (es : List String) :
    Routine K Own (printNumbered number es) := by
  induction es generalizing number with
  | nil => exact .pure _
  | cons e es ih => exact .bind (routine_printLine _) fun _ => ih (number + 1)

/-- The command for the history is routine. -/
theorem routine_showHistory (arguments : List String) : Routine K Own (showHistory arguments) := by
  refine .bind routine_historyEntries fun es => ?_
  split
  · exact routine_printNumbered 1 es
  · rename_i count _
    have hcount : Routine K Own (countOf count) := by
      unfold countOf
      split
      · exact .pure _
      · exact .throw fun _ => rfl
      · exact .throw fun _ => rfl
    refine .bind hcount fun n => ?_
    split
    · exact routine_printLine _
    · exact routine_printNumbered _ _

/-- The command for help is routine, modules that it loads included. -/
theorem routine_showHelp : Routine K Own showHelp := by
  have hprint (context : Context) : Routine K Own (do
      printLine "\nCommands:"
      ((← get).registries.get context.registry).all.forM fun e => printLine (helpLine e)
      printLine (commandLine "!<cmd>" "Run shell command")
      printLine (commandLine "<a>; <b>" "Run several commands in order")
      printLine "") := by
    refine .bind (routine_printLine _) fun _ => .look (fun _ _ => rfl) fun _ _ => ?_
    refine .bind (.forM fun _ _ => routine_printLine _) fun _ => ?_
    exact .bind (routine_printLine _) fun _ => .bind (routine_printLine _) fun _ => routine_printLine _
  refine .look (fun _ _ => rfl) fun w _ => ?_
  dsimp only
  split
  · exact .bind (Loader.routine_loadAll false) fun _ => hprint _
  · exact hprint _

/-- **A command that comes with the shell** is routine. -/
theorem routine_call (b : Builtin) (origin : Nat) (arguments : List String) :
    Routine K Own (b.call origin arguments) := by
  have hreturn {a : Shell Unit} (value : Json) (h : Routine K Own a) :
      Routine K Own (a >>= fun _ => pure value) := .bind h fun _ => .pure value
  cases b with
  | cd => exact hreturn _ (routine_changeDirectory origin arguments)
  | config => exact hreturn _ (routine_configure arguments)
  | echo => exact hreturn _ (routine_printLine _)
  | help => exact hreturn _ routine_showHelp
  | history => exact hreturn _ (routine_showHistory arguments)
  | pwd => exact hreturn _ (.bind Files.routine_currentDirectory fun _ => routine_printLine _)
  | quit => exact hreturn _ (routine_printLine _)

end Builtin

end CommandShell
