import CommandShell.Proofs.Program.Linking
import CommandShell.Proofs.Settings.Reloading

/-! # Setting the shell up

The program that sets the shell up reads the settings, may write the defaults over them, and links the modules
into the directory that it read. A manager that reads the settings afterwards reports this directory if they
were not written over, or if it is that of the defaults: then every module that comes with the shell has an
entry in the directory that is reported (`Program.Setup.hasEntry_of_run`). -/

namespace CommandShell

namespace Program.Setup

open World Shell

/-- The directory of the user's modules that a manager reports. -/
def commandsDirectory (m : ManagerId) : Shell Path := do
  let c ← Manager.config m
  settingPath (c.commandsDir.getD (Setting.defaultCommandsDir (← get).home))

variable {w w' u : World} {m k : ManagerId} {directory path : Path} {text : RawText}

/-! ## Reported directories -/

/-- Where a leading `~` leads depends on the users alone. -/
theorem expandHome_eq_ok (h : (Files.expandHome path).run w = .ok directory w') :
    w' = w ∧ ∀ u : World, u.home = w.home → u.accounts = w.accounts →
      (Files.expandHome path).run u = .ok directory u := by
  obtain ⟨f, hf⟩ | ⟨p, hp⟩ := Files.expandHome_cases path w
  · rw [hf w rfl rfl] at h
    cases h
  · rw [hp w rfl rfl] at h
    cases h
    exact ⟨rfl, hp⟩

/-- What a manager without settings in memory reports depends on the settings that it loads. -/
theorem commandsDirectory_eq_ok_iff (hm : w.settings.get? m = none) :
    (commandsDirectory m).run w = .ok directory w' ↔ ∃ c w₁,
      (SettingsFile.load true).run w = .ok c w₁ ∧
      (settingPath (c.commandsDir.getD (Setting.defaultCommandsDir w₁.home))).run w₁
        = .ok directory w₁ ∧
      w' = { w₁ with settings := w₁.settings.put m c } := by
  unfold commandsDirectory
  constructor
  · intro h
    obtain ⟨c, w₂, hconfig, hpath⟩ := run_bind_eq_ok_iff.mp h
    unfold Manager.config at hconfig
    rw [run_bind_ok (EStateM.run_get w), hm] at hconfig
    obtain ⟨c', w₁, hload, hconfig⟩ := run_bind_eq_ok_iff.mp hconfig
    cases hconfig
    rw [run_bind_ok (EStateM.run_get _)] at hpath
    obtain ⟨rfl, hsame⟩ := expandHome_eq_ok hpath
    exact ⟨c, w₁, hload, hsame w₁ rfl rfl, rfl⟩
  · rintro ⟨c, w₁, hload, hpath, rfl⟩
    rw [run_bind_ok (Manager.run_config_fresh hm hload), run_bind_ok (EStateM.run_get _)]
    exact (expandHome_eq_ok hpath).2 _ rfl rfl

/-- **A fresh manager reports the same directory** as long as the file reads the same. -/
theorem reports_again {data : List UInt8} (hm : w.settings.get? m = none)
    (hread : SettingsFile.Reads w data) (h : (commandsDirectory m).run w = .ok directory w') :
    w.Built w' ∧ ∀ u k, SettingsFile.Reads u data → u.home = w.home → u.accounts = w.accounts →
      u.settings.get? k = none → ∃ u', (commandsDirectory k).run u = .ok directory u' ∧ u.Built u' := by
  obtain ⟨c, w₁, hload, hpath, rfl⟩ := (commandsDirectory_eq_ok_iff hm).mp h
  obtain ⟨⟨es, rfl⟩, hagain⟩ := hread.load_again hload
  refine ⟨⟨⟨rfl, rfl, rfl, rfl⟩, .refl _⟩, fun u k hu hhome haccounts hk => ?_⟩
  obtain ⟨es', hload'⟩ := hagain u hu
  refine ⟨_, (commandsDirectory_eq_ok_iff hk).mpr ⟨c, _, hload', ?_, rfl⟩,
    ⟨⟨rfl, rfl, rfl, rfl⟩, .refl _⟩⟩
  have hsame := (expandHome_eq_ok hpath).2 (u.emitted es') hhome haccounts
  rw [show (u.emitted es').home = (w.emitted es).home from hhome]
  exact hsame

/-- **Where the file holds the defaults**, a fresh manager reports the default directory. -/
theorem reports_default (hdefaults : SettingsFile.Holds u (Settings.defaultTable u.home))
    (hk : u.settings.get? k = none)
    (h : (settingPath (Setting.defaultCommandsDir w.home)).run w = .ok directory w')
    (hhome : u.home = w.home) (haccounts : u.accounts = w.accounts) :
    ∃ u', (commandsDirectory k).run u = .ok directory u' ∧ u.Built u' := by
  obtain ⟨c, hload, hc⟩ := SettingsFile.exists_load_of_holds_defaults hdefaults
  refine ⟨_, (commandsDirectory_eq_ok_iff hk).mpr ⟨c, u, hload, ?_, rfl⟩,
    ⟨⟨rfl, rfl, rfl, rfl⟩, .refl _⟩⟩
  rw [hc, Option.getD_some, hhome]
  exact (expandHome_eq_ok h).2 u hhome haccounts

/-! ## The course of a run -/

/-- The words of a command line force the program to overwrite what is there. -/
def Forces (words : List String) : Prop :=
  ∃ taken, CommandLine.parse spec words = .options taken ∧ CommandLine.hasFlag taken "force" = true

/-- The course of a run that succeeds: the directory is asked for, the defaults are written if the program is
to overwrite what is there, or if nothing is there, and the modules are linked. -/
structure Course (force isThere : Bool) (directory : Path) (sources : List Path)
    (w w₁ w₂ v w₃ : World) : Prop where
  /-- Whether there is a settings file is known before it is read. -/
  asked : (Files.isThere (SettingsFile.pathOf w.home)).run w = .ok isThere w
  /-- The shared manager reports the directory. -/
  reported : (commandsDirectory Builtin.sharedManager).run w = .ok directory w₁
  /-- The defaults are written, or else nothing happens. -/
  written : (force || !isThere) = true ∧ (∃ p, SettingsFile.writeDefaults.run w₁ = .ok p w₂) ∨
    (force || !isThere) = false ∧ w₂ = w₁
  /-- The directory is made. -/
  made : (Files.makeDirectories directory).run w₂ = .ok () v
  /-- The modules are listed. -/
  listed : (Files.list v.builtinsDir).run v = .ok sources v
  /-- They are linked. -/
  linked : Linking directory force sources v w₃

/-- Printing builds. -/
theorem built_printLine (text : String) : Within Built (printLine text) :=
  within_emit fun _ => ⟨⟨rfl, rfl, rfl, rfl⟩, .refl _⟩

/-- So does printing a list. -/
theorem built_printList (heading : String) (listed : List String) :
    Within Built (printList heading listed) := by
  unfold printList
  split
  · exact frame_built.within_pure ()
  · exact frame_built.within_bind (built_printLine heading) fun _ =>
      frame_built.within_forM fun _ _ => built_printLine _

/-- Options that are read are those of the words, and reading them changes nothing. -/
theorem readOptions_eq_ok {p : ProgramSpec} {words : List String} {taken : List CommandLine.Taken}
    (h : (readOptions p words).run w = .ok taken w') :
    w' = w ∧ CommandLine.parse p words = .options taken := by
  unfold readOptions at h
  cases hparse : CommandLine.parse p words with
  | options taken' =>
    rw [hparse] at h
    cases h
    exact ⟨rfl, rfl⟩
  | help =>
    rw [hparse] at h
    obtain ⟨_, _, _, h⟩ := run_bind_eq_ok_iff.mp h
    obtain ⟨_, _, _, h⟩ := run_bind_eq_ok_iff.mp h
    cases h
  | mistake m =>
    rw [hparse] at h
    obtain ⟨_, _, _, h⟩ := run_bind_eq_ok_iff.mp h
    obtain ⟨_, _, _, h⟩ := run_bind_eq_ok_iff.mp h
    cases h

/-- What is installed is linked, and what is printed afterwards leaves it. -/
theorem exists_linking_of_installBuiltins {force : Bool} {code : Nat} {more : List String → Shell Nat}
    (hmore : ∀ linked, Within Built (more linked))
    (h : (installBuiltins directory force >>= more).run w = .ok code w') :
    ∃ v sources w₁, (Files.makeDirectories directory).run w = .ok () v ∧
      (Files.list v.builtinsDir).run v = .ok sources v ∧ Linking directory force sources v w₁ ∧
        w₁.Built w' := by
  obtain ⟨linked, w₁, hinstall, hrest⟩ := run_bind_eq_ok_iff.mp h
  unfold installBuiltins at hinstall
  obtain ⟨_, v, hmake, hinstall⟩ := run_bind_eq_ok_iff.mp hinstall
  rw [run_bind_ok (EStateM.run_get v)] at hinstall
  obtain ⟨sources, v', hlist, hlink⟩ := run_bind_eq_ok_iff.mp hinstall
  obtain ⟨rfl, -⟩ := Files.exists_listing_of_list hlist
  exact ⟨_, sources, w₁, hmake, hlist, linking_of_run hlink, (hmore linked).of_ok hrest⟩

/-- A run that succeeds has a course, and only builds on after it. -/
theorem exists_course {words : List String} {code : Nat} (h : (run words).run w = .ok code w') :
    ∃ taken isThere directory sources w₁ w₂ v w₃,
      CommandLine.parse spec words = .options taken ∧
        Course (CommandLine.hasFlag taken "force") isThere directory sources w w₁ w₂ v w₃ ∧
          w₃.Built w' := by
  unfold run at h
  obtain ⟨taken, w₀, htaken, hrest⟩ := run_bind_eq_ok_iff.mp h
  obtain ⟨rfl, hparse⟩ := readOptions_eq_ok htaken
  rw [run_bind_ok (SettingsFile.run_path w₀)] at hrest
  obtain ⟨isThere, w₁, hthere, hrest⟩ := run_bind_eq_ok_iff.mp hrest
  obtain rfl := Files.run_ask_eq hthere
  obtain ⟨c, w₂, hconfig, hrest⟩ := run_bind_eq_ok_iff.mp hrest
  rw [run_bind_ok (EStateM.run_get w₂)] at hrest
  obtain ⟨directory, w₃, hpath, hrest⟩ := run_bind_eq_ok_iff.mp hrest
  have hreported : (commandsDirectory Builtin.sharedManager).run w₁ = .ok directory w₃ := by
    unfold commandsDirectory
    rw [run_bind_ok hconfig, run_bind_ok (EStateM.run_get w₂), hpath]
  -- What is printed in the end changes nothing that the course is about.
  refine ⟨taken, isThere, directory, ?_⟩
  have hreport (created skipped : List String) : Within Built (if CommandLine.hasFlag taken "quiet" then
      pure 0 else do
      printList "Created:" created
      printList "\nAlready exists (skipped):" skipped
      printLine "\nInitialization complete!"
      printLine ("\nCustomize commands: Edit files in " ++ directory.toString ++ "/")
      printLine "Start the shell:    cmdsh"
      pure 0) := by
    split
    · exact frame_built.within_pure 0
    · refine frame_built.within_bind (built_printList _ _) fun _ => ?_
      refine frame_built.within_bind (built_printList _ _) fun _ => ?_
      refine frame_built.within_bind (built_printLine _) fun _ => ?_
      refine frame_built.within_bind (built_printLine _) fun _ => ?_
      exact frame_built.within_bind (built_printLine _) fun _ => frame_built.within_pure 0
  cases hoverwrite : CommandLine.hasFlag taken "force" || !isThere with
  | true =>
    simp only [hoverwrite, if_true] at hrest
    obtain ⟨p, w₄, hwrite, hrest⟩ := run_bind_eq_ok_iff.mp hrest
    obtain ⟨v, sources, w₅, hmake, hlist, hlink, hbuilt⟩ :=
      exists_linking_of_installBuiltins (fun linked => hreport _ _) hrest
    exact ⟨sources, w₃, w₄, v, w₅, hparse,
      ⟨hthere, hreported, .inl ⟨hoverwrite, p, hwrite⟩, hmake, hlist, hlink⟩, hbuilt⟩
  | false =>
    simp only [hoverwrite, Bool.false_eq_true, if_false] at hrest
    obtain ⟨v, sources, w₅, hmake, hlist, hlink, hbuilt⟩ :=
      exists_linking_of_installBuiltins (fun linked => hreport _ _) hrest
    exact ⟨sources, w₃, w₃, v, w₅, hparse,
      ⟨hthere, hreported, .inr ⟨hoverwrite, rfl⟩, hmake, hlist, hlink⟩, hbuilt⟩

/-! ## What a run leaves -/

section

variable {force isThere : Bool} {sources : List Path} {source : Path} {w₁ w₂ v w₃ : World}

namespace Course

/-- No directory is lost until the modules are linked. -/
theorem furnished (h : Course force isThere directory sources w w₁ w₂ v w₃)
    (hfresh : w.settings.get? Builtin.sharedManager = none) : w.Furnished v := by
  have hasked : w.Furnished w₁ := by
    obtain ⟨c, w₀, hload, -, rfl⟩ := (commandsDirectory_eq_ok_iff hfresh).mp h.reported
    obtain ⟨-, data, hread⟩ | ⟨-, -, p, hwrite⟩ := SettingsFile.load_eq_ok hload
    · exact (reports_again hfresh hread h.reported).1.furnished
    · have hwritten := SettingsFile.furnished_writeDefaults.of_ok hwrite
      exact ⟨⟨hwritten.cwd, hwritten.home, hwritten.accounts, hwritten.builtinsDir⟩, hwritten.covered⟩
  have hwritten : w₁.Furnished w₂ := by
    obtain ⟨-, p, hwrite⟩ | ⟨-, rfl⟩ := h.written
    · exact SettingsFile.furnished_writeDefaults.of_ok hwrite
    · exact frame_furnished.refl _
  exact frame_furnished.trans (frame_furnished.trans hasked hwritten)
    ((Files.built_makeDirectories directory).of_ok h.made).furnished

/-- The modules that come with the shell are among those that are linked. -/
theorem mem_sources (h : Course force isThere directory sources w w₁ w₂ v w₃)
    (hsource : v.HasBuiltin source) : source ∈ sources := by
  obtain ⟨sources', hlist, hmem⟩ := hsource.listed
  rw [h.listed] at hlist
  cases hlist
  exact hmem

/-- Where the defaults are written, they are there when the modules are linked. -/
theorem holds_defaults (h : Course force isThere directory sources w w₁ w₂ v w₃)
    (hoverwrite : (force || !isThere) = true) :
    SettingsFile.Holds v (Settings.defaultTable v.home) := by
  have hbuilt := (Files.built_makeDirectories directory).of_ok h.made
  obtain ⟨-, p, hwrite⟩ | ⟨hno, -⟩ := h.written
  · rw [hbuilt.home]
    exact (SettingsFile.holds_of_writeDefaults hwrite).of_built hbuilt
  · rw [hoverwrite] at hno
    cases hno

/-- Where nothing is replaced, every module has an entry. -/
theorem hasEntry (h : Course false isThere directory sources w w₁ w₂ v w₃)
    (hfresh : w.settings.get? Builtin.sharedManager = none) :
    v.Built w₃ ∧ ∀ source, w.HasBuiltin source → w₃.HasEntry directory source.name := by
  obtain ⟨hbuilt, hentries⟩ := h.linked.hasEntry
  refine ⟨hbuilt, fun source hsource => ?_⟩
  have hsource' := hasBuiltin_of_furnished hsource (h.furnished hfresh)
  exact hentries source (h.mem_sources hsource') hsource'.isModule

/-- Where nothing is replaced, a fresh manager reports the directory of the entries. -/
theorem reports (h : Course false isThere directory sources w w₁ w₂ v w₃)
    (hfresh : w.settings.get? Builtin.sharedManager = none) (hbuilt : v.Built u)
    (hm : u.settings.get? m = none) :
    ∃ u', (commandsDirectory m).run u = .ok directory u' ∧ u.Built u' := by
  have hplaces := (h.furnished hfresh).toSamePlaces.trans hbuilt.toSamePlaces
  obtain ⟨c, w₀, hload, hpath, hw₁⟩ := (commandsDirectory_eq_ok_iff hfresh).mp h.reported
  obtain ⟨hthere, data, hread⟩ | ⟨hmissing, rfl, p, hwrite⟩ := SettingsFile.load_eq_ok hload
  · -- The file was there, and it is left as it was.
    have hasked := h.asked
    rw [hthere] at hasked
    cases hasked
    obtain ⟨hreported, hagain⟩ := reports_again hfresh hread h.reported
    obtain ⟨hoverwrite, -⟩ | ⟨-, rfl⟩ := h.written
    · cases hoverwrite
    · have hmade := (Files.built_makeDirectories directory).of_ok h.made
      exact hagain u m (hread.of_built (frame_built.trans hreported (frame_built.trans hmade hbuilt)))
        hplaces.home hplaces.accounts hm
  · -- The file was made from the defaults.
    have hasked := h.asked
    rw [hmissing] at hasked
    cases hasked
    have hdefaults := (h.holds_defaults rfl).of_built hbuilt
    rw [← hbuilt.home] at hdefaults
    have hwritten := SettingsFile.furnished_writeDefaults.of_ok hwrite
    exact reports_default hdefaults hm hpath (hplaces.home.trans hwritten.home.symm)
      (hplaces.accounts.trans hwritten.accounts.symm)

end Course

end

/-! ## Overwriting what is there -/

/-- Replacing entries of a directory **spares** what the program relies on: in a part of the tree without these
entries, the directory, the modules and the settings file are found. -/
structure Spared (v : World) (directory : Path) (sources : List Path) (base : FileTree) (l : Location) :
    Prop where
  /-- The modules are those that are listed. -/
  listed : (Files.list v.builtinsDir).run v = .ok sources v
  /-- It is a part of the tree. -/
  below : base.Below v.files
  /-- The directory is found in it, and the entries are not there. -/
  spares : Spares base directory l sources
  /-- The home directory is absolute. -/
  home : (Path.ofString v.home).IsRooted
  /-- So is the directory of the modules. -/
  builtinsDir : v.builtinsDir.IsRooted
  /-- The modules are found in it. -/
  modules : ∀ source, v.HasBuiltin source →
    (isModule source).run { v with files := base } = .ok true { v with files := base }
  /-- So is the settings file. -/
  settings : ∀ data, SettingsFile.Reads v data → SettingsFile.Reads { v with files := base } data

/-- What the program does before it links the modules, if it is to overwrite what is there. -/
def prepare : Shell Path := do
  let directory ← commandsDirectory Builtin.sharedManager
  let _ ← SettingsFile.writeDefaults
  Files.makeDirectories directory
  pure directory

/-- An absolute path needs no expansion. -/
theorem run_settingPath_of_isAbsolute (h : (Path.ofText text).isAbsolute = true) (w : World) :
    (settingPath text).run w = .ok (Path.ofText text) w := by
  have huser : (Path.ofText text).user? = none := if_pos h
  unfold settingPath Files.expandHome
  rw [huser]
  rfl

/-- Neither does the default directory under an absolute home directory. -/
theorem run_settingPath_default (h : (Path.ofString w.home).IsRooted) :
    (settingPath (Setting.defaultCommandsDir w.home)).run w
      = .ok (Path.ofString (Setting.defaultCommandsDir w.home)) w := by
  have hhome : Path.rootOf w.home ≠ "" := by
    intro hempty
    have hroot : (Path.ofString w.home).root = Path.rootOf w.home :=
      congrArg Path.rootOf (RawText.toString_ofString w.home)
    rw [Path.IsRooted, hroot, hempty] at h
    exact h rfl
  have hne : w.home ≠ "" := by
    intro hempty
    rw [hempty] at hhome
    exact hhome rfl
  have habsolute : (Path.ofString (Setting.defaultCommandsDir w.home)).isAbsolute = true := by
    refine bne_iff_ne.mpr fun hempty => hhome ?_
    rw [Path.ofString, Path.ofText, RawText.toString_ofString, Setting.defaultCommandsDir] at hempty
    exact (Path.rootOf_append hne _).mp hempty
  exact run_settingPath_of_isAbsolute habsolute w

section

variable {isThere : Bool} {sources : List Path} {source : Path} {w₁ w₂ v w₃ : World}
  {base : FileTree} {l : Location}

namespace Course

/-- The course of a forced run prepares as the program does. -/
theorem run_prepare (h : Course true isThere directory sources w w₁ w₂ v w₃) :
    prepare.run w = .ok directory v := by
  obtain ⟨-, p, hwrite⟩ | ⟨hno, -⟩ := h.written
  · unfold prepare
    rw [run_bind_ok h.reported, run_bind_ok hwrite, run_bind_ok h.made]
    rfl
  · cases hno

/-- What is spared is there in the end, and every module has an entry. -/
theorem hasEntry_of_spared (h : Course true isThere directory sources w w₁ w₂ v w₃)
    (hfresh : w.settings.get? Builtin.sharedManager = none)
    (hspared : Spared v directory sources base l) :
    (base.Below w₃.files ∧ w₃.home = v.home ∧ w₃.accounts = v.accounts) ∧
      ∀ source, w.HasBuiltin source → w₃.HasEntry directory source.name := by
  obtain ⟨hsame, -, hentries⟩ := h.linked.hasEntry_of_spares hspared.spares hspared.below
  refine ⟨hsame, fun source hsource => ?_⟩
  have hsource' := hasBuiltin_of_furnished hsource (h.furnished hfresh)
  have hmem := h.mem_sources hsource'
  -- The path of a module starts like that of the directory.
  have hroot : source.IsRooted := by
    obtain ⟨-, _, _, -, -, rfl⟩ := Files.exists_listing_of_list h.listed
    obtain ⟨n, -, rfl⟩ := List.mem_map.mp hmem
    exact hspared.builtinsDir
  exact hentries source hmem fun u hu =>
    isModule_of_below (hspared.modules source hsource') hroot hu

/-- What is written stays if it is spared, so a fresh manager reports the default directory. -/
theorem reports_of_spared (h : Course true isThere directory sources w w₁ w₂ v w₃)
    (hspared : Spared v directory sources base l) (hbelow : base.Below u.files)
    (hhome : u.home = v.home) (hm : u.settings.get? m = none) :
    ∃ u', (commandsDirectory m).run u = .ok (Path.ofString (Setting.defaultCommandsDir v.home)) u' ∧
      u.Built u' := by
  have hdefaults := h.holds_defaults rfl
  obtain ⟨data, hread, hparse⟩ := hdefaults.exists_reads
  have hread' := (hspared.settings data hread).of_below hspared.home hhome hbelow
  have hdefaults' := hread'.holds hparse hdefaults.faithful
  rw [← hhome] at hdefaults' ⊢
  have hroot : (Path.ofString u.home).IsRooted := by
    rw [hhome]
    exact hspared.home
  exact reports_default hdefaults' hm (run_settingPath_default hroot) rfl rfl

end Course

end

/-- **Where the modules are linked.** If the program succeeds, it linked them into the directory that the
settings named before it ran: in the end every module that comes with the shell has an entry there. This is the
directory that a fresh manager reports afterwards, unless the words force the program to overwrite the
settings, for then the default directory is reported. Entries that are replaced must not hold what the program
relies on. -/
theorem hasEntry_of_run {words : List String} (hrun : (run words).run w.restarted = .ok 0 w')
    (hforce : Forces words → ∀ directory v, prepare.run w.restarted = .ok directory v →
      ∃ sources base l, Spared v directory sources base l)
    (hm : w'.settings.get? m = none) :
    ∃ linked reported w₁ u,
      (commandsDirectory Builtin.sharedManager).run w.restarted = .ok linked w₁ ∧
      (commandsDirectory m).run w' = .ok reported u ∧
      (∀ source, w.HasBuiltin source → u.HasEntry linked source.name) ∧
      (¬Forces words → reported = linked) ∧
      (Forces words → reported = Path.ofString (Setting.defaultCommandsDir w.home)) := by
  have hfresh : w.restarted.settings.get? Builtin.sharedManager = none := rfl
  have hbuiltin {source : Path} (h : w.HasBuiltin source) : w.restarted.HasBuiltin source :=
    hasBuiltin_of_furnished h (Built.furnished ⟨⟨rfl, rfl, rfl, rfl⟩, .refl _⟩)
  obtain ⟨taken, isThere, linked, sources, w₁, w₂, v, w₃, hparse, hcourse, hprinted⟩ :=
    exists_course hrun
  have hforces : Forces words ↔ CommandLine.hasFlag taken "force" = true := by
    refine ⟨?_, fun h => ⟨taken, hparse, h⟩⟩
    rintro ⟨taken', hparse', h⟩
    rw [hparse] at hparse'
    cases hparse'
    exact h
  rw [hforces] at hforce ⊢
  have hfurnished := hcourse.furnished hfresh
  -- Without force the settings stay, and so the directory that is reported is the linked one.
  cases hflag : CommandLine.hasFlag taken "force" with
  | false =>
    rw [hflag] at hcourse
    obtain ⟨hbuilt, hentries⟩ := hcourse.hasEntry hfresh
    obtain ⟨u, hreported, hu⟩ := hcourse.reports hfresh (frame_built.trans hbuilt hprinted) hm
    refine ⟨linked, linked, w₁, u, hcourse.reported, hreported, fun source hsource => ?_,
      fun _ => rfl, fun h => by cases h⟩
    exact (hentries source (hbuiltin hsource)).of_built (frame_built.trans hprinted hu)
  | true =>
    rw [hflag] at hcourse hforce
    obtain ⟨sources', base, l, hspared⟩ := hforce rfl linked v hcourse.run_prepare
    have hsources := hcourse.listed
    rw [hspared.listed] at hsources
    cases hsources
    obtain ⟨⟨hbelow, hhome, -⟩, hentries⟩ := hcourse.hasEntry_of_spared hfresh hspared
    obtain ⟨u, hreported, hu⟩ := hcourse.reports_of_spared hspared
      (hbelow.trans hprinted.below) (hprinted.home.trans hhome) hm
    refine ⟨linked, _, w₁, u, hcourse.reported, hreported, fun source hsource => ?_,
      fun h => absurd rfl h, fun _ => by rw [hfurnished.home]; rfl⟩
    exact (hentries source (hbuiltin hsource)).of_built (frame_built.trans hprinted hu)

/-! ## A home directory and one module -/

/-- A tree with one module, a home directory with a settings file, and two directories for links. -/
def homeFiles (data : List UInt8) : FileTree :=
  ⟨⟨[(["b"], .directory), (["b", "cd"], .directory), (["m"], .directory), (["h"], .directory),
    (["h", ".cmdsh"], .directory), (["h", ".cmdsh", "commands"], .directory),
    (["h", ".cmdsh", "config.json"], .file (.bytes data))]⟩⟩

/-- A world with these files. -/
def homeWorld (data : List UInt8) : World :=
  { (default : World) with home := "/h", builtinsDir := Path.ofNames ["b"], files := homeFiles data }

/-- The one module. -/
def homeModule : Path := Path.ofNames ["b", "cd"]

/-- The bytes of the defaults. -/
def defaultBytes : List UInt8 :=
  Utf8.encode ((Json.ofTable (Settings.defaultTable "/h")).encode ++ "\n").toList

section

open FileTree

variable (data : List UInt8) (cwd : WorkingDirectory) (last : LastName) {rest : List String}
  {d : Destination}

/-- The names in the small world are names of entries. -/
theorem isName_home {c : String} (hc : c ∈ ["b", "cd", "m", "h", ".cmdsh", "commands", "config.json"]) :
    IsName c := by
  simp only [List.mem_cons, List.not_mem_nil, or_false] at hc
  rcases hc with rfl | rfl | rfl | rfl | rfl | rfl | rfl
  all_goals exact ⟨by decide, by decide, by decide⟩

/-- A walk in the small world enters any directory that it meets. -/
theorem enter_home {c : String} {links : Nat} {place : Location}
    (hc : c ∈ ["b", "cd", "m", "h", ".cmdsh", "commands", "config.json"])
    (hnode : (homeFiles data).node? (place ++ [c]) = some .directory) (hrest : isSlashed rest = false)
    (h : Leads (homeFiles data) last links (place ++ [c]) rest d) :
    Leads (homeFiles data) last links place (c :: rest) d :=
  .enter (isName_home hc) hnode (by simp [hrest]) h

/-- A walk from the root comes to the directory of the modules. -/
theorem leads_builtinsDir :
    Leads (homeFiles data) last maxLinks [] ["", "b"] (.found ["b"] .directory) :=
  .skip (.inl rfl) (enter_home data last (by simp) rfl rfl .here)

/-- From there it comes to the one module. -/
theorem leads_homeModule :
    Leads (homeFiles data) last maxLinks [] ["", "b", "cd"] (.found ["b", "cd"] .directory) :=
  .skip (.inl rfl) (enter_home data last (by simp) rfl rfl (enter_home data last (by simp) rfl rfl .here))

/-- It comes to the directory of the settings. -/
theorem leads_settingsDirectory : Leads (homeFiles data) last maxLinks [] ["", "h", ".cmdsh"]
    (.found ["h", ".cmdsh"] .directory) :=
  .skip (.inl rfl) (enter_home data last (by simp) rfl rfl (enter_home data last (by simp) rfl rfl .here))

/-- It comes to the settings file, whatever is asked of the last name. -/
theorem leads_settingsFile : Leads (homeFiles data) last maxLinks []
    ["", "h", ".cmdsh", "config.json"]
    (.found ["h", ".cmdsh", "config.json"] (.file (.bytes data))) :=
  .skip (.inl rfl) (enter_home data last (by simp) rfl rfl (enter_home data last (by simp) rfl rfl
    (.file (isName_home (by simp)) rfl)))

/-- It comes to the default directory of the user's modules. -/
theorem leads_commands : Leads (homeFiles data) last maxLinks [] ["", "h", ".cmdsh", "commands"]
    (.found ["h", ".cmdsh", "commands"] .directory) :=
  .skip (.inl rfl) (enter_home data last (by simp) rfl rfl (enter_home data last (by simp) rfl rfl
    (enter_home data last (by simp) rfl rfl .here)))

/-- In this directory the name of the module is free. -/
theorem leads_commandsEntry : Leads (homeFiles data) last maxLinks []
    ["", "h", ".cmdsh", "commands", "cd"] (.free ["h", ".cmdsh", "commands"] "cd") :=
  .skip (.inl rfl) (enter_home data last (by simp) rfl rfl (enter_home data last (by simp) rfl rfl
    (enter_home data last (by simp) rfl rfl (.free (isName_home (by simp)) rfl))))

/-- It comes to the other directory. -/
theorem leads_other :
    Leads (homeFiles data) last maxLinks [] ["", "m"] (.found ["m"] .directory) :=
  .skip (.inl rfl) (enter_home data last (by simp) rfl rfl .here)

/-- There, too, the name of the module is free. -/
theorem leads_otherEntry :
    Leads (homeFiles data) last maxLinks [] ["", "m", "cd"] (.free ["m"] "cd") :=
  .skip (.inl rfl) (enter_home data last (by simp) rfl rfl (.free (isName_home (by simp)) rfl))

/-- The path of the settings file leads to it. -/
theorem resolve_settingsFile : (homeFiles data).resolve cwd last "/h/.cmdsh/config.json"
    = .ok (.found ["h", ".cmdsh", "config.json"] (.file (.bytes data))) :=
  resolve_of_leads (by decide) (by decide) (by decide) (leads_settingsFile data last) cwd

/-- The one module is all that is listed. -/
theorem listing_builtinsDir : (homeFiles data).listing cwd "/b" = .ok ["cd"] := by
  have hnames : (homeFiles data).names ["b"] = ["cd"] := by
    simp [FileTree.names, homeFiles, Table.keys]
  rw [listing, directory, resolve_of_leads (by decide) (by decide) (by decide)
    (leads_builtinsDir data _) cwd, ← hnames]
  rfl

/-- The module is a directory. -/
theorem find_homeModule : (homeFiles data).find cwd "/b/cd" = .ok .directory := by
  rw [find, resolve_of_leads (by decide) (by decide) (by decide) (leads_homeModule data _) cwd]

/-- The settings file stands in a directory. -/
theorem find_settingsDirectory : (homeFiles data).find cwd "/h/.cmdsh" = .ok .directory := by
  rw [find, resolve_of_leads (by decide) (by decide) (by decide) (leads_settingsDirectory data _) cwd]

/-- The world of the program on these files, with settings of the shared manager in memory. -/
def homeAsked (c : Settings) : World :=
  { (homeWorld data).restarted with
    settings := ({} : Table Nat Settings).put Builtin.sharedManager c }

/-- Then with a link as well. -/
def homeLinked (c : Settings) (l : Location) : World :=
  { homeAsked defaultBytes c with
    files := (homeFiles defaultBytes).put (l ++ ["cd"]) (.link "/b/cd") }

/-- Writing the defaults replaces the bytes of the settings file and nothing else. -/
theorem run_writeDefaults_home (c : Settings) :
    SettingsFile.writeDefaults.run (homeAsked data c)
      = .ok (SettingsFile.pathOf "/h") (homeAsked defaultBytes c) := by
  have hname : Files.fileName (SettingsFile.directoryOf "/h").text = .ok "/h/.cmdsh" := rfl
  have hmake : (Files.makeDirectories (SettingsFile.directoryOf "/h")).run (homeAsked data c)
      = .ok () (homeAsked data c) :=
    Files.run_makeDirectories_of_find hname (find_settingsDirectory data _)
  have hfile : Files.fileName (SettingsFile.pathOf "/h").text = .ok "/h/.cmdsh/config.json" := rfl
  have hwrite : (homeFiles data).write default "/h/.cmdsh/config.json" (fun _ => .bytes defaultBytes)
      = .ok (homeFiles defaultBytes) := by
    rw [FileTree.write, resolve_settingsFile]
    rfl
  have hbytes : (Files.writeBytes (SettingsFile.pathOf "/h") defaultBytes).run (homeAsked data c)
      = .ok () (homeAsked defaultBytes c) := Files.run_change_ok hfile hwrite
  rw [SettingsFile.run_writeDefaults]
  unfold SettingsFile.writeRaw
  rw [run_bind_ok (SettingsFile.run_directory _)]
  refine (run_bind_ok hmake _).trans ?_
  rw [run_bind_ok (SettingsFile.run_path _)]
  exact (run_bind_ok hbytes _).trans rfl

/-- The settings name a directory of the small world, in which nothing stands under the name of the module. -/
structure Vacant (c : Settings) (directory : Path) (name entry : String) (l : Location) : Prop where
  /-- The settings name the directory. -/
  path : ∀ w : World, w.home = "/h" →
    (settingPath (c.commandsDir.getD (Setting.defaultCommandsDir w.home))).run w = .ok directory w
  /-- Its path is absolute. -/
  rooted : directory.IsRooted
  /-- The name of the path. -/
  named : Files.fileName directory.text = .ok name
  /-- The directory is there. -/
  find : ∀ data cwd, (homeFiles data).find cwd name = .ok .directory
  /-- The name of the path of the entry. -/
  entryNamed : Files.fileName (directory.child "cd").text = .ok entry
  /-- The entry is not there. -/
  free : ∀ data cwd last, (homeFiles data).resolve cwd last entry = .ok (.free l "cd")

variable {data} {c : Settings} {directory : Path} {name entry : String} {l : Location}

/-- The settings file is read in the small world, before and after it was read first. -/
theorem reads_home (data : List UInt8) (c : Settings) :
    SettingsFile.Reads (homeWorld data).restarted data ∧
      SettingsFile.Reads (homeAsked data c) data := by
  have hname : Files.fileName (SettingsFile.pathOf "/h").text = .ok "/h/.cmdsh/config.json" := rfl
  have hread : (homeFiles data).read default "/h/.cmdsh/config.json"
      = .ok (["h", ".cmdsh", "config.json"], .bytes data) :=
    FileTree.read_eq_ok_iff.mpr (resolve_settingsFile data _ _)
  exact ⟨⟨_, _, hname, hread, rfl⟩, ⟨_, _, hname, hread, rfl⟩⟩

/-- The directory of the modules can be listed. -/
theorem run_list_home (data : List UInt8) (c : Settings) :
    (Files.list (Path.ofNames ["b"])).run (homeAsked data c) = .ok [homeModule] (homeAsked data c) := by
  have hname : Files.fileName (Path.ofNames ["b"]).text = .ok "/b" := rfl
  exact (Files.run_list hname (listing_builtinsDir data _)).trans rfl

/-- The shared manager reports the directory that the accepted settings name. -/
theorem run_commandsDirectory_home (hc : SettingsFile.Accepts data c)
    (h : Vacant c directory name entry l) :
    (commandsDirectory Builtin.sharedManager).run (homeWorld data).restarted
      = .ok directory (homeAsked data c) :=
  (commandsDirectory_eq_ok_iff rfl).mpr
    ⟨c, _, (reads_home data c).1.run_load_of_accepts hc true, h.path _ rfl, rfl⟩

/-- The directory is there, so making it changes nothing. -/
theorem Vacant.run_makeDirectories (h : Vacant c directory name entry l) :
    (Files.makeDirectories directory).run (homeAsked defaultBytes c)
      = .ok () (homeAsked defaultBytes c) :=
  Files.run_makeDirectories_of_find h.named (h.find _ _)

/-- What the program does first is read the settings, write the defaults, and report the directory of the
old settings. -/
theorem run_prepare_home (hc : SettingsFile.Accepts data c) (h : Vacant c directory name entry l) :
    prepare.run (homeWorld data).restarted = .ok directory (homeAsked defaultBytes c) := by
  unfold prepare
  rw [run_bind_ok (run_commandsDirectory_home hc h), run_bind_ok (run_writeDefaults_home data c),
    run_bind_ok h.run_makeDirectories]
  rfl

/-- The program links the module into the directory. -/
theorem run_home (hc : SettingsFile.Accepts data c) (h : Vacant c directory name entry l) :
    (run ["--force", "--quiet"]).run (homeWorld data).restarted = .ok 0 (homeLinked c l) := by
  obtain ⟨taken, hparse, hforce, hquiet⟩ : ∃ taken,
      CommandLine.parse spec ["--force", "--quiet"] = .options taken ∧
        CommandLine.hasFlag taken "force" = true ∧ CommandLine.hasFlag taken "quiet" = true :=
    ⟨_, rfl, rfl, rfl⟩
  have hreadOptions : (readOptions spec ["--force", "--quiet"]).run (homeWorld data).restarted
      = .ok taken (homeWorld data).restarted := by
    unfold readOptions
    rw [hparse]
    rfl
  have hread := (reads_home data c).1
  have hconfig : (Manager.config Builtin.sharedManager).run (homeWorld data).restarted
      = .ok c (homeAsked data c) :=
    Manager.run_config_fresh rfl (hread.run_load_of_accepts hc true)
  have hsource : Files.fileName homeModule.text = .ok "/b/cd" := rfl
  have hmodule : (isModule homeModule).run (homeAsked defaultBytes c)
      = .ok true (homeAsked defaultBytes c) :=
    run_isModule hsource (find_homeModule defaultBytes _) (by decide)
  -- Nothing stands under the name of the module, so a link is made.
  have hthere : (Files.isThere (directory.child "cd")).run (homeAsked defaultBytes c)
      = .ok false (homeAsked defaultBytes c) := by
    have hfind : (homeFiles defaultBytes).find default entry = .error .noEntry := by
      rw [FileTree.find, h.free]
    exact Files.run_ask_absent h.entryNamed (congrArg (Except.map fun _ => true) hfind) rfl
  have hlink : (Files.isLink (directory.child "cd")).run (homeAsked defaultBytes c)
      = .ok false (homeAsked defaultBytes c) :=
    Files.run_ask_ok h.entryNamed (congrArg (Except.map _) (h.free defaultBytes default .kept))
  have hmakeLink : (Files.makeLink (directory.child "cd") homeModule.text).run
      (homeAsked defaultBytes c) = .ok () (homeLinked c l) := by
    have hput : (homeAsked defaultBytes c).files.makeLink (homeAsked defaultBytes c).cwd entry "/b/cd"
        = .ok ((homeFiles defaultBytes).put (l ++ ["cd"]) (.link "/b/cd")) := by
      show (homeFiles defaultBytes).makeLink default entry "/b/cd" = _
      rw [FileTree.makeLink, if_neg (by decide), if_neg (by decide), FileTree.makeNode, h.free]
    exact Files.run_makeLink h.entryNamed hsource hput
  have hinstall : (installBuiltins directory true).run (homeAsked defaultBytes c)
      = .ok [(directory.child "cd").toString ++ " -> " ++ homeModule.toString] (homeLinked c l) := by
    unfold installBuiltins
    rw [run_bind_ok h.run_makeDirectories, run_bind_ok (EStateM.run_get _)]
    refine (run_bind_ok (run_list_home defaultBytes c) _).trans ?_
    exact run_linkModules_of_free hmodule hthere hlink hmakeLink rfl
  unfold run
  rw [run_bind_ok hreadOptions, run_bind_ok (SettingsFile.run_path _)]
  refine (run_bind_ok hread.run_isThere _).trans ?_
  rw [run_bind_ok hconfig, run_bind_ok (EStateM.run_get _)]
  refine (run_bind_ok (h.path _ rfl) _).trans ?_
  simp only [hforce, Bool.true_or, if_true]
  refine (run_bind_ok (run_writeDefaults_home data c) _).trans ?_
  refine (run_bind_ok hinstall _).trans ?_
  rw [hquiet]
  rfl

/-! ## Where modules are linked, and where not -/

/-- In the small world the module comes with the shell. -/
theorem hasBuiltin_home (data : List UInt8) : (homeWorld data).HasBuiltin homeModule := by
  have hdirectory : Files.fileName (Path.ofNames ["b"]).text = .ok "/b" := rfl
  have hsource : Files.fileName homeModule.text = .ok "/b/cd" := rfl
  have hlist : (Files.list (Path.ofNames ["b"])).run (homeWorld data) = .ok [homeModule] (homeWorld data) :=
    (Files.run_list hdirectory (listing_builtinsDir data _)).trans rfl
  exact ⟨⟨_, hlist, List.mem_singleton_self _⟩,
    run_isModule hsource (find_homeModule data _) (by decide)⟩

/-- The default directory is an absolute path. -/
theorem run_settingPath_home {w : World} (hhome : w.home = "/h") :
    (settingPath (Setting.defaultCommandsDir w.home)).run w
      = .ok (Path.ofString "/h/.cmdsh/commands") w := by
  have hroot : (Path.ofString w.home).IsRooted := by
    rw [hhome]
    decide
  rw [run_settingPath_default hroot, hhome]
  rfl

/-- The default directory of the small world. -/
def homeCommands : Path := Path.ofString "/h/.cmdsh/commands"

/-- Settings that name no directory name the default one, where the name is free. -/
theorem vacant_homeCommands (hc : c.commandsDir = none) : Vacant c homeCommands
    "/h/.cmdsh/commands" "/h/.cmdsh/commands/cd" ["h", ".cmdsh", "commands"] where
  path w hhome := by
    rw [hc]
    exact run_settingPath_home hhome
  rooted := by
    decide
  named := rfl
  find data cwd := by
    rw [FileTree.find, FileTree.resolve_of_leads (by decide) (by decide) (by decide)
      (leads_commands data _) cwd]
  entryNamed := rfl
  free data cwd last :=
    FileTree.resolve_of_leads (by decide) (by decide) (by decide) (leads_commandsEntry data _) cwd

/-- The other directory is named by an absolute path. -/
theorem absolute_other : (Path.ofText "/m").isAbsolute = true := by
  decide

/-- Settings that name the other directory name one where the name is free. -/
theorem vacant_other : Vacant { Settings.empty with commandsDir := some "/m" } (Path.ofString "/m")
    "/m" "/m/cd" ["m"] where
  path w _ := run_settingPath_of_isAbsolute absolute_other w
  rooted := by
    decide
  named := rfl
  find data cwd := by
    rw [FileTree.find, FileTree.resolve_of_leads (by decide) (by decide) (by decide)
      (leads_other data _) cwd]
  entryNamed := rfl
  free data cwd last :=
    FileTree.resolve_of_leads (by decide) (by decide) (by decide) (leads_otherEntry data _) cwd

/-- Nothing that the program relies on is replaced in the default directory. -/
theorem spared_home (c : Settings) : Spared (homeAsked defaultBytes c) homeCommands [homeModule]
    (homeFiles defaultBytes) ["h", ".cmdsh", "commands"] where
  listed := run_list_home defaultBytes c
  below := .refl _
  spares := by
    have hvacant := vacant_homeCommands (c := Settings.empty) rfl
    refine ⟨⟨hvacant.rooted, by decide, ?_⟩, ?_, ?_⟩
    · intro name hname
      cases hvacant.named.symm.trans hname
      exact leads_commands defaultBytes _
    · intro source hsource _
      rw [List.mem_singleton.mp hsource]
      exact ⟨isName_home (c := "cd") (by decide), by decide⟩
    · intro source hsource _ l' hl'
      rw [List.mem_singleton.mp hsource] at hl'
      obtain ⟨rest, rfl⟩ := hl'
      rfl
  home := by
    show (Path.ofString "/h").IsRooted
    decide
  builtinsDir := by
    show (Path.ofNames ["b"]).IsRooted
    decide
  modules := fun _ h => h.isModule
  settings := fun _ h => h

/-- **Set up by force**, the module is linked into the default directory if the settings name no other. -/
theorem linked_home :
    ∃ w' u, (run ["--force", "--quiet"]).run (homeWorld (Utf8.encode SettingsFile.flagText)).restarted
        = .ok 0 w' ∧
      w'.settings.get? 1 = none ∧ (commandsDirectory 1).run w' = .ok homeCommands u ∧
      u.HasEntry homeCommands homeModule.name := by
  have hc : SettingsFile.Accepts (Utf8.encode SettingsFile.flagText)
      { Settings.empty with simple := some true } :=
    ⟨.obj [("simple", .bool true)], ⟨SettingsFile.flagText, Utf8.decode_encode _, rfl⟩, rfl⟩
  have hvacant := vacant_homeCommands (c := { Settings.empty with simple := some true }) rfl
  have hrun := run_home hc hvacant
  have hspared : ∀ directory v,
      prepare.run (homeWorld (Utf8.encode SettingsFile.flagText)).restarted = .ok directory v →
        ∃ sources base l, Spared v directory sources base l := by
    intro directory v h
    rw [run_prepare_home hc hvacant] at h
    cases h
    exact ⟨_, _, _, spared_home _⟩
  obtain ⟨linked, reported, w₁, u, hlinked, hreported, hentries, -, hdefault⟩ :=
    hasEntry_of_run (m := 1) hrun (fun _ => hspared) rfl
  rw [run_commandsDirectory_home hc hvacant] at hlinked
  cases hlinked
  obtain rfl := hdefault ⟨_, rfl, rfl⟩
  exact ⟨_, u, hrun, rfl, hreported, hentries homeModule (hasBuiltin_home _)⟩

/-- The text of an object that names another directory. -/
def otherText : List Char := "\x7b\"commands_dir\": \"/m\"\x7d\n".toList

/-- If the settings name another directory, the module is linked there: the default directory, which is
reported afterwards, has no entry for it. -/
theorem linked_elsewhere :
    ∃ w' u, (run ["--force", "--quiet"]).run (homeWorld (Utf8.encode otherText)).restarted = .ok 0 w' ∧
      w'.settings.get? 1 = none ∧ (commandsDirectory 1).run w' = .ok homeCommands u ∧
      (homeWorld (Utf8.encode otherText)).HasBuiltin homeModule ∧
      ¬u.HasEntry homeCommands homeModule.name := by
  have hc : SettingsFile.Accepts (Utf8.encode otherText)
      { Settings.empty with commandsDir := some "/m" } :=
    ⟨.obj [("commands_dir", .str "/m")], ⟨otherText, Utf8.decode_encode _, rfl⟩, rfl⟩
  have hrun := run_home hc vacant_other
  -- The file holds the defaults, and the link stands elsewhere.
  have hbelow : (homeFiles defaultBytes).Below
      ((homeFiles defaultBytes).put ["m", "cd"] (.link "/b/cd")) := FileTree.below_put rfl _
  have hbuilt : (homeAsked defaultBytes { Settings.empty with commandsDir := some "/m" }).Built
      (homeLinked { Settings.empty with commandsDir := some "/m" } ["m"]) := built_of_below hbelow
  have hfaithful := SettingsFile.faithful_defaultTable "/h"
  have hdefaults := ((reads_home defaultBytes { Settings.empty with commandsDir := some "/m" }).2.holds
    (SettingsFile.parse_encode hfaithful) hfaithful).of_built hbuilt
  obtain ⟨d, hload, hd⟩ := SettingsFile.exists_load_of_holds_defaults hdefaults
  refine ⟨_, _, hrun, rfl, (commandsDirectory_eq_ok_iff rfl).mpr ⟨d, _, hload, ?_, rfl⟩,
    hasBuiltin_home _, ?_⟩
  · rw [hd]
    exact run_settingPath_home rfl
  · rintro ⟨name, destination, hname, hresolve, hsettled⟩
    cases hname
    have hleads : FileTree.Leads ((homeFiles defaultBytes).put ["m", "cd"] (.link "/b/cd")) .kept
        FileTree.maxLinks [] ["", "h", ".cmdsh", "commands", "cd"]
        (.free ["h", ".cmdsh", "commands"] "cd") := by
      refine .skip (.inl rfl) (.enter (isName_home (c := "h") (by decide)) rfl (by decide) ?_)
      refine .enter (isName_home (c := ".cmdsh") (by decide)) rfl (by decide) ?_
      refine .enter (isName_home (c := "commands") (by decide)) rfl (by decide) ?_
      exact .free (isName_home (c := "cd") (by decide)) rfl
    have hfree : ((homeFiles defaultBytes).put ["m", "cd"] (.link "/b/cd")).resolve default .kept
        "/h/.cmdsh/commands/cd" = .ok (.free ["h", ".cmdsh", "commands"] "cd") :=
      FileTree.resolve_of_leads (by decide) (by decide) (by decide) hleads default
    cases hresolve.symm.trans hfree
    exact hsettled

end

end Program.Setup

end CommandShell
