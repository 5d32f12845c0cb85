import CommandShell.Proofs.Files.Growth
import CommandShell.Proofs.Loader.Search
import CommandShell.Proofs.Settings.Startup

/-! # Loading the settings again

What a settings file gives depends on its bytes alone (`SettingsFile.Reads.load_again`), and files that are
there are read as long as nodes are only added (`SettingsFile.Reads.of_built`). So what was loaded once is
loaded again, and after the defaults were written these are (`SettingsFile.exists_load_of_holds_defaults`). -/

namespace CommandShell

namespace SettingsFile

open World Shell

variable {w w' u : World} {data : List UInt8} {c : Settings} {t : Table RawText Json}

/-! ## Worlds in which the file reads the same -/

/-- A file that reads goes on to read where only building happens. -/
theorem Reads.of_built (h : Reads w data) (hu : w.Built u) : Reads u data := by
  obtain ⟨name, r, hname, hread, hr⟩ := h
  refine ⟨name, r, ?_, ?_, hr⟩
  · rw [hu.home]
    exact hname
  · rw [hu.cwd]
    exact FileTree.read_of_below hread hu.below

/-- A file that holds an object goes on to hold it where only building happens. -/
theorem Holds.of_built (h : Holds w t) (hu : w.Built u) : Holds u t := by
  obtain ⟨data, hreads, hparse⟩ := h.exists_reads
  exact (hreads.of_built hu).holds hparse h.faithful

/-- Under an absolute home directory the settings file has an absolute path. -/
theorem isRooted_pathOf {home : String} (h : (Path.ofString home).IsRooted) :
    (pathOf home).IsRooted := h

/-- Below an absolute home directory the working directory does not matter. -/
theorem Reads.of_below (h : Reads w data) (hroot : (Path.ofString w.home).IsRooted)
    (hhome : u.home = w.home) (hu : w.files.Below u.files) : Reads u data := by
  obtain ⟨name, r, hname, hread, hr⟩ := h
  refine ⟨name, r, ?_, ?_, hr⟩
  · rw [hhome]
    exact hname
  · rw [FileTree.read_cwd ((isRooted_pathOf hroot).rootOf_name hname) u.files u.cwd w.cwd]
    exact FileTree.read_of_below hread hu

/-! ## Loading -/

/-- Where loading succeeds, the file is read, or it is missing and made from the defaults. -/
theorem load_eq_ok (h : (load true).run w = .ok c w') :
    ((Files.isThere (pathOf w.home)).run w = .ok true w ∧ ∃ data, Reads w data) ∨
      ((Files.isThere (pathOf w.home)).run w = .ok false w ∧ c = .empty ∧
        ∃ p, writeDefaults.run w = .ok p w') := by
  unfold load at h
  rw [run_bind_ok (run_path w)] at h
  obtain ⟨isThere, w₁, hthere, h⟩ := run_bind_eq_ok_iff.mp h
  obtain rfl := Files.run_ask_eq hthere
  cases isThere with
  | false =>
    obtain ⟨p, w₂, hwrite, h⟩ := run_bind_eq_ok_iff.mp h
    cases h
    exact .inr ⟨hthere, rfl, p, hwrite⟩
  | true =>
    obtain ⟨name, hname, -⟩ := Files.exists_of_run_ask hthere
    cases hread : w₁.files.read w₁.cwd name with
    | ok r => exact .inl ⟨hthere, _, name, r, hname, hread, rfl⟩
    | error e =>
      -- What is there but cannot be read is a fault.
      obtain ⟨j, w₂, hraw, -⟩ := run_bind_eq_ok_iff.mp h
      unfold readRaw at hraw
      rw [run_bind_ok (run_path w₁)] at hraw
      obtain ⟨data?, w₃, hbytes, -⟩ := run_bind_eq_ok_iff.mp hraw
      have hfails : (some <$> Files.readBytes (pathOf w₁.home)).run w₁
          = .error (.system e [(pathOf w₁.home).text]) w₁ := by
        rw [map_eq_pure_bind, run_bind_error (Files.run_readBytes_error hname hread)]
      rw [run_catch_error hfails] at hbytes
      cases e with
      | noEntry =>
        rw [Files.run_isThere_of_noEntry hname hread] at hthere
        cases hthere
      | _ => cases hbytes

/-- **What a file gives depends on its bytes alone.** -/
theorem Reads.load_again (h : Reads w data) (hload : (load true).run w = .ok c w') :
    (∃ es, w' = w.emitted es) ∧
      ∀ u, Reads u data → ∃ es, (load true).run u = .ok c (u.emitted es) := by
  by_cases hup : GivesUp data
  · obtain ⟨f, hfault⟩ := h.run_load_of_givesUp hup true
    rw [hload] at hfault
    cases hfault
  by_cases hc : ∃ c, Accepts data c
  · obtain ⟨c, hc⟩ := hc
    rw [h.run_load_of_accepts hc true] at hload
    cases hload
    exact ⟨⟨[], (emitted_nil w).symm⟩, fun u hu =>
      ⟨[], by rw [emitted_nil]; exact hu.run_load_of_accepts hc true⟩⟩
  · have hno : ∀ c, ¬Accepts data c := fun c hc' => hc ⟨c, hc'⟩
    obtain ⟨message, hempty⟩ := h.run_load_of_not_accepts hno hup true
    rw [hempty] at hload
    cases hload
    refine ⟨⟨_, rfl⟩, fun u hu => ?_⟩
    obtain ⟨message, hempty⟩ := hu.run_load_of_not_accepts hno hup true
    exact ⟨_, hempty⟩

/-! ## After the defaults were written -/

/-- Writing the defaults keeps all directories. -/
theorem furnished_writeDefaults : Within Furnished writeDefaults := by
  have hR := frame_furnished
  have hdirectory : Within Furnished directory := fun w => hR.refl w
  have hpath : Within Furnished path := fun w => hR.refl w
  refine hR.within_bind hR.within_get fun _ => hR.within_bind hdirectory fun d => ?_
  refine hR.within_bind (fun w => (Files.built_makeDirectories d w).furnished) fun _ => ?_
  exact hR.within_bind hpath fun p => hR.within_bind (Files.furnished_writeBytes p _) fun _ =>
    hR.within_pure p

/-- Once the defaults were written, the file holds them. -/
theorem holds_of_writeDefaults {p : Path} (h : writeDefaults.run w = .ok p w') :
    Holds w' (Settings.defaultTable w'.home) := by
  rw [run_writeDefaults] at h
  obtain ⟨w₁, name, files, update, hmake, hname, hwrite⟩ := exists_write_of_writeRaw h
  obtain ⟨p', w₂, hrun, hsame, hholds⟩ :=
    exists_holds_of_write hmake hname hwrite (faithful_defaultTable w.home)
  rw [h] at hrun
  cases hrun
  rw [hsame.home]
  exact hholds

/-- Where the file holds the defaults, these are loaded, and nothing changes. -/
theorem exists_load_of_holds_defaults (h : Holds w (Settings.defaultTable w.home)) :
    ∃ c, (load true).run w = .ok c w ∧
      c.commandsDir = some (RawText.ofString (Setting.defaultCommandsDir w.home)) := by
  obtain ⟨c, hc, hdefault⟩ := Settings.ofMembers_defaultTable w.home
  refine ⟨c, h.run_load hc true, ?_⟩
  have htext : c.commandsDir.map Setting.Value.text = _ := hdefault .commandsDir
  obtain ⟨text, hc, hvalue⟩ := Option.map_eq_some_iff.mp htext
  cases hvalue
  exact hc

end SettingsFile

end CommandShell
