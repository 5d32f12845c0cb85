import CommandShell.Proofs.Files.Carried
import CommandShell.Proofs.Settings.File
import CommandShell.Settings.Manager

/-! # What a manager remembers and what the file holds

All that the calls of a manager depend on is which members the settings file holds, if it is there, and
which settings the manager has in memory (`Standing`). Here is what each of them makes of the two. Loading
a file gives the settings in it if it is accepted, and else none (`SettingsFile.loaded`); a missing file is
made from the defaults on that occasion (`SettingsFile.created`). -/

namespace CommandShell

namespace SettingsFile

open World Shell

variable {w u : World} {t : Table RawText Json} {file : Option (Table RawText Json)}

/-- The settings that a file gives, of which the members are known if it is there. -/
def loaded : Option (Table RawText Json) → Settings
  | none => .empty
  | some t =>
    match Settings.ofMembers t with
    | .ok c => c
    | .error _ => .empty

/-- The members of the file once it was loaded. -/
def created (home : String) (file : Option (Table RawText Json)) : Table RawText Json :=
  file.getD (Settings.defaultTable home)

/-- The settings file holds these members, or it is missing. -/
def Stands (w : World) : Option (Table RawText Json) → Prop
  | none => Missing w
  | some t => Holds w t

/-- Without settings none has a value. -/
@[simp] theorem get?_empty (s : Setting) : Settings.empty.get? s = none := by
  cases s <;> rfl

/-- Without settings the defaults hold. -/
@[simp] theorem effective_empty (home : String) (s : Setting) :
    Settings.empty.effective home s = s.default home := by
  rw [Settings.effective, get?_empty]
  rfl

/-- A file that is accepted gives its settings. -/
theorem loaded_of_ok {c : Settings} (h : Settings.ofMembers t = .ok c) : loaded (some t) = c := by
  rw [loaded, h]

/-- A file that is rejected gives no settings. -/
theorem loaded_of_error {r : Report} (h : Settings.ofMembers t = .error r) :
    loaded (some t) = .empty := by
  rw [loaded, h]

/-- A file is accepted and gives what it holds, or it is rejected and gives nothing. -/
theorem loaded_cases (file : Option (Table RawText Json)) :
    Settings.ofMembers (file.getD {}) = .ok (loaded file) ∨
      (∃ r, Settings.ofMembers (file.getD {}) = .error r) ∧ loaded file = .empty := by
  cases file with
  | none => exact .inl rfl
  | some t =>
    cases hc : Settings.ofMembers t with
    | ok c =>
      rw [loaded_of_ok hc]
      exact .inl hc
    | error r => exact .inr ⟨⟨r, hc⟩, loaded_of_error hc⟩

/-- What a file gives was accepted in it. -/
theorem check_of_get?_loaded {s : Setting} {v : Setting.Value}
    (h : (loaded (some t)).get? s = some v) : s.check (t.get? s.key) = .ok (some v) := by
  cases hc : Settings.ofMembers t with
  | ok c =>
    rw [loaded_of_ok hc] at h
    rw [← h]
    exact Settings.ofMembers_eq_ok_iff.mp hc s
  | error r =>
    rw [loaded_of_error hc, get?_empty] at h
    cases h

/-- To load a file leaves the values that it gives. -/
theorem effective_loaded_created (home : String) (file : Option (Table RawText Json)) (s : Setting) :
    (loaded (some (created home file))).effective home s = (loaded file).effective home s := by
  cases file with
  | some t => rfl
  | none =>
    obtain ⟨d, hd, hdefault⟩ := Settings.ofMembers_defaultTable home
    show (loaded (some (Settings.defaultTable home))).effective home s
      = Settings.empty.effective home s
    rw [loaded_of_ok hd, effective_empty, Settings.effective, hdefault s]
    rfl

/-- Once it was loaded the file holds accepted settings. Those that were loaded are among them, and all the
values are the same. -/
theorem exists_ofMembers_created (home : String)
    (h : Settings.ofMembers (file.getD {}) = .ok (loaded file)) :
    ∃ d, Settings.ofMembers (created home file) = .ok d ∧
      (∀ s, d.effective home s = (loaded file).effective home s) ∧
      ∀ s, ((loaded file).get? s).or (d.get? s) = d.get? s := by
  have heffective := effective_loaded_created home file
  cases file with
  | none =>
    obtain ⟨d, hd, -⟩ := Settings.ofMembers_defaultTable home
    rw [created, Option.getD_none, loaded_of_ok hd] at heffective
    refine ⟨d, hd, heffective, fun s => ?_⟩
    rw [loaded, get?_empty, Option.none_or]
  | some t => exact ⟨_, h, fun s => rfl, fun s => Option.or_self⟩

/-! ## Files into which settings were merged -/

section Merge

variable {c : Settings} {s : Setting}

/-- **Settings that a file completes** can be merged into it, and then what the check makes of the members
is what the file gives. -/
theorem check_merge_eq_loaded (h : c.Completed t) (s : Setting) :
    s.check ((c.merge t).get? s.key) = .ok ((loaded (some (c.merge t))).get? s) := by
  have haccepted (s : Setting) : ∃ u, s.check ((c.merge t).get? s.key) = .ok u := by
    rw [Settings.check_merge]
    cases hs : c.get? s with
    | some v => exact ⟨_, rfl⟩
    | none => exact h s hs
  obtain ⟨d, hd⟩ := Settings.exists_ofMembers haccepted
  rw [loaded_of_ok hd]
  exact Settings.ofMembers_eq_ok_iff.mp hd s

/-- Settings that were merged into a file which completes them are given by it. -/
theorem get?_loaded_merge (h : c.Completed t) {v : Setting.Value} (hs : c.get? s = some v) :
    (loaded (some (c.merge t))).get? s = some v := by
  have hcheck := check_merge_eq_loaded h s
  simp only [Settings.check_merge, hs] at hcheck
  exact (Except.ok.inj hcheck).symm

/-- What the settings leave open is given as the file had it. -/
theorem check_eq_loaded_merge (h : c.Completed t) (hs : c.get? s = none) :
    s.check (t.get? s.key) = .ok ((loaded (some (c.merge t))).get? s) := by
  have hcheck := check_merge_eq_loaded h s
  simp only [Settings.check_merge, hs] at hcheck
  exact hcheck

/-- Another file is not accepted then, and gives nothing. -/
theorem loaded_merge_of_not_completed (h : ¬c.Completed t) : loaded (some (c.merge t)) = .empty := by
  cases hd : Settings.ofMembers (c.merge t) with
  | error r => exact loaded_of_error hd
  | ok d =>
    refine absurd (fun s hs => ?_) h
    have hcheck := Settings.ofMembers_eq_ok_iff.mp hd s
    simp only [Settings.check_merge, hs] at hcheck
    exact ⟨_, hcheck⟩

end Merge

/-! ## Other worlds with the same file -/

/-- Worlds with the same files read the same settings file. -/
theorem Reads.of_same {data : List UInt8} (h : Reads w data) (hsame : w.SameFiles u) :
    Reads u data := by
  obtain ⟨name, r, hname, hread, hr⟩ := h
  refine ⟨name, r, ?_, ?_, hr⟩
  · rw [hsame.home]
    exact hname
  · rw [hsame.files, hsame.cwd]
    exact hread

/-- Worlds with the same files hold the same object. -/
theorem Holds.of_same (h : Holds w t) (hsame : w.SameFiles u) : Holds u t := by
  obtain ⟨data, hreads, hparse⟩ := h.exists_reads
  exact (hreads.of_same hsame).holds hparse h.faithful

/-- What is written is written alike wherever the files are the same. -/
theorem carries_writeRaw (j : Json) : Carries SameFiles (writeRaw j) := by
  have hdirectory : Carries SameFiles directory := by
    intro w u h
    rw [run_directory, run_directory, h.home]
    exact .ok h
  have hpath : Carries SameFiles path := by
    intro w u h
    rw [run_path, run_path, h.home]
    exact .ok h
  refine carries_bind hdirectory fun d => carries_bind (Files.carries_makeDirectories d) fun _ => ?_
  refine carries_bind hpath fun p => carries_bind (Files.carries_change p _) fun _ => carries_pure p

/-- Writing the settings file changes nothing but files. -/
theorem sameButFiles_writeRaw (j : Json) : Within World.SameButFiles (writeRaw j) := by
  have hR := World.frame_sameButFiles
  have hdirectory : Within World.SameButFiles directory := fun w => hR.refl w
  have hpath : Within World.SameButFiles path := fun w => hR.refl w
  refine hR.within_bind hdirectory fun d => ?_
  refine hR.within_bind (Files.sameButFiles_makeDirectories d) fun _ => hR.within_bind hpath fun p => ?_
  exact hR.within_bind (Files.sameButFiles_change p _) fun _ => hR.within_pure p

/-- Where the file can be written, it can be in all worlds with the same files. -/
theorem Takes.of_same (h : Takes w) (hsame : w.SameFiles u) : Takes u := by
  intro t ht
  obtain ⟨p, w', hwrite, -, hholds⟩ := h t ht
  obtain ⟨u', hwrite', hsame'⟩ := (carries_writeRaw _).of_ok hsame hwrite
  exact ⟨p, u', hwrite', (sameButFiles_writeRaw _).of_ok hwrite', hholds.of_same hsame'⟩

/-- Where the file is missing, it is in all worlds with the same files. -/
theorem Missing.of_same (h : Missing w) (hsame : w.SameFiles u) : Missing u := by
  obtain ⟨name, hname, hread⟩ := h.absent
  have hname' : Files.fileName (pathOf u.home).text = .ok name := by rw [hsame.home, hname]
  have hread' : u.files.read u.cwd name = .error .noEntry := by rw [hsame.files, hsame.cwd, hread]
  obtain ⟨p, u', hwrite, -, -⟩ := (h.takes.of_same hsame) _ (faithful_defaultTable u.home)
  refine ⟨⟨name, hname', hread'⟩, .empty, u', ?_⟩
  rw [← run_writeDefaults] at hwrite
  rw [run_load_of_absent hname' hread', run_bind_ok hwrite]
  rfl

/-- The file stands alike in worlds with the same files. -/
theorem Stands.of_same (h : Stands w file) (hsame : w.SameFiles u) : Stands u file := by
  cases file with
  | none => exact Missing.of_same h hsame
  | some t => exact Holds.of_same h hsame

/-! ## Reading and writing -/

/-- A file that stands somehow can be written. -/
theorem Stands.takes (h : Stands w file) : Takes w := by
  cases file with
  | none => exact Missing.takes h
  | some t => exact Holds.takes h

/-- What is read are the members of the file, or none if it is missing. -/
theorem Stands.run_readRaw (h : Stands w file) :
    readRaw.run w = .ok (Json.ofTable (file.getD {})) w := by
  cases file with
  | none => exact Missing.run_readRaw h
  | some t => exact Holds.run_readRaw h

/-- Its object, or the one without members, is faithful. -/
theorem Stands.faithful (h : Stands w file) :
    (Json.ofTable (file.getD {})).Faithful Json.maxDepth := by
  cases file with
  | none =>
    exact Json.faithful_ofTable_iff.mpr ⟨List.nodup_nil, fun m hm => absurd hm List.not_mem_nil⟩
  | some t => exact Holds.faithful h

/-- Loading a file that is there gives its settings, or reports that it does not fit. -/
theorem Holds.run_loaded (h : Holds w t) (create : Bool) :
    ∃ es, (load create).run w = .ok (loaded (some t)) (w.emitted es) := by
  cases hc : Settings.ofMembers t with
  | ok c =>
    refine ⟨[], ?_⟩
    rw [loaded_of_ok hc, emitted_nil]
    exact h.run_load hc create
  | error r =>
    obtain ⟨data, hreads, -⟩ := h.exists_reads
    rw [loaded_of_error hc]
    exact ⟨_, hreads.run_load_rejected h.run_readRaw hc create⟩

/-- **Loading** gives the settings of the file, and makes a missing one from the defaults. -/
theorem Stands.run_load (h : Stands w file) :
    ∃ w', (load true).run w = .ok (loaded file) w' ∧ w'.home = w.home ∧ w'.settings = w.settings ∧
      Stands w' (some (created w.home file)) := by
  cases file with
  | none =>
    obtain ⟨w', hload, ⟨files, rfl⟩, hholds⟩ := Missing.run_load h
    exact ⟨_, hload, rfl, rfl, hholds⟩
  | some t =>
    obtain ⟨es, hload⟩ := Holds.run_loaded h true
    exact ⟨_, hload, rfl, rfl, Holds.of_same h ⟨rfl, rfl, rfl⟩⟩

/-- Without making it, loading a missing file changes nothing. -/
theorem Stands.run_load_false (h : Stands w file) :
    ∃ es, (load false).run w = .ok (loaded file) (w.emitted es) := by
  cases file with
  | none =>
    obtain ⟨name, hname, hread⟩ := Missing.absent h
    refine ⟨[], ?_⟩
    unfold load
    rw [run_bind_ok (run_path w), run_bind_ok (Files.run_isThere_of_noEntry hname hread), emitted_nil]
    rfl
  | some t => exact Holds.run_loaded h false

/-- The settings that a file gives can be written down again. -/
theorem Stands.writable (h : Stands w file) : (loaded file).Writable := by
  have hempty : Settings.empty.Writable := by
    intro s x hx
    rw [get?_empty] at hx
    cases hx
  cases file with
  | none => exact hempty
  | some t =>
    cases hc : Settings.ofMembers t with
    | ok c =>
      rw [loaded_of_ok hc]
      exact Settings.writable_of_ofMembers (Holds.faithful h) hc
    | error r =>
      rw [loaded_of_error hc]
      exact hempty

end SettingsFile

namespace Manager

open SettingsFile

variable {m : ManagerId} {w : World}

/-- The settings file says an object with these members, whose doubles JSON reads back. -/
def Says (w : World) (t : Table RawText Json) : Prop :=
  ∃ name r, Files.fileName (pathOf w.home).text = .ok name ∧ w.files.read w.cwd name = .ok r ∧
    parse (Files.contentBytes r.2) = .ok (.ok (Json.ofTable t)) ∧
    ∀ x ∈ (Json.ofTable t).doubles, Json.DoubleReadsBack x

/-- What a file says it holds. -/
theorem holds_of_text {t : Table RawText Json} (h : Says w t) : Holds w t := by
  obtain ⟨name, r, hname, hread, hparse, hdoubles⟩ := h
  exact ⟨⟨name, r, hname, hread, hparse⟩, faithful_of_parse hparse hdoubles⟩

/-! ## What a manager remembers -/

/-- A setting is found by its key. -/
theorem run_setting (s : Setting) (w : World) : (setting s.key).run w = .ok s w := by
  unfold setting
  rw [Setting.ofKey?_key]
  rfl

/-- A key of no setting ends with a fault that names it. -/
theorem run_setting_unknown {key : String} (h : Setting.ofKey? key = none) (w : World) :
    (setting key).run w = .error (.unknownSetting key) w := by
  unfold setting
  rw [h]
  rfl

/-- A manager that remembers settings gives these. -/
theorem run_config_cached {c : Settings} (h : w.settings.get? m = some c) :
    (config m).run w = .ok c w := by
  unfold config
  rw [Shell.run_bind_ok (EStateM.run_get w), h]
  rfl

/-- A manager that remembers none loads them, and remembers them. -/
theorem run_config_fresh {w₁ : World} {c : Settings} (h : w.settings.get? m = none)
    (hload : (load true).run w = .ok c w₁) :
    (config m).run w = .ok c { w₁ with settings := w₁.settings.put m c } := by
  unfold config
  rw [Shell.run_bind_ok (EStateM.run_get w), h]
  exact (Shell.run_bind_ok hload _).trans rfl

/-- The settings file has these members, or it is missing, and the manager has these settings in memory, or
none. -/
structure Standing (m : ManagerId) (home : String) (w : World) (file : Option (Table RawText Json))
    (memory : Option Settings) : Prop where
  /-- This is the home directory. -/
  home_eq : w.home = home
  /-- This is the file. -/
  stands : Stands w file
  /-- This is in memory. -/
  remembers : w.settings.get? m = memory

namespace Standing

variable {home : String} {file : Option (Table RawText Json)} {memory : Option Settings}
  {t : Table RawText Json}

/-- Whatever a manager remembers, it stands somehow to the file. -/
theorem of_stands (h : Stands w file) (m : ManagerId) :
    Standing m w.home w file (w.settings.get? m) := ⟨rfl, h, rfl⟩

/-- A standing is passed on to worlds with the same files and the same memory. -/
theorem of_same (h : Standing m home w file memory) {u : World} {memory' : Option Settings}
    (hsame : w.SameFiles u) (hmemory : u.settings.get? m = memory') : Standing m home u file memory' :=
  ⟨hsame.home.trans h.home_eq, h.stands.of_same hsame, hmemory⟩

/-- Loading gives what the file gives, and makes a missing file with the defaults in it. -/
theorem run_load (h : Standing m home w file memory) :
    ∃ w', (load true).run w = .ok (loaded file) w' ∧
      Standing m home w' (some (created home file)) memory := by
  obtain ⟨w', hload, hhome, hsettings, hstands⟩ := h.stands.run_load
  rw [h.home_eq] at hhome hstands
  exact ⟨w', hload, hhome, hstands, by rw [hsettings, h.remembers]⟩

/-- Loading without making a file leaves it missing. -/
theorem run_load_false (h : Standing m home w file memory) :
    ∃ w', (load false).run w = .ok (loaded file) w' ∧ Standing m home w' file memory := by
  obtain ⟨es, hload⟩ := h.stands.run_load_false
  exact ⟨_, hload, h.of_same ⟨rfl, rfl, rfl⟩ h.remembers⟩

/-- **Asking for the settings** gives what is in memory; what is not is loaded first. -/
theorem run_config (h : Standing m home w file memory) :
    ∃ w', (config m).run w = .ok (memory.getD (loaded file)) w' ∧
      Standing m home w' (if memory.isSome then file else some (created home file))
        (some (memory.getD (loaded file))) := by
  cases memory with
  | some c => exact ⟨w, run_config_cached h.remembers, h⟩
  | none =>
    obtain ⟨w', hload, hstanding⟩ := h.run_load
    exact ⟨_, run_config_fresh h.remembers hload,
      hstanding.of_same ⟨rfl, rfl, rfl⟩ (Table.get?_put_self _ _ _)⟩

/-- The value of a setting is told by what is in memory or else by the file. -/
theorem run_get (h : Standing m home w file memory) (s : Setting) :
    ∃ w', (get m s).run w = .ok ((memory.getD (loaded file)).effective home s) w' ∧
      Standing m home w' (if memory.isSome then file else some (created home file))
        (some (memory.getD (loaded file))) := by
  obtain ⟨w', hconfig, hstanding⟩ := h.run_config
  refine ⟨w', ?_, hstanding⟩
  unfold get
  rw [Shell.run_bind_ok hconfig, ← hstanding.home_eq]
  rfl

/-- Getting a value loads the settings if none are remembered. -/
theorem run_getKey (h : Standing m home w file memory) (key : String) (otherwise : Json) :
    ∃ j w', (getKey m key otherwise).run w = .ok j w' ∧
      Standing m home w' (if memory.isSome then file else some (created home file))
        (some (memory.getD (loaded file))) := by
  obtain ⟨w', hconfig, hstanding⟩ := h.run_config
  unfold getKey
  rw [Shell.run_bind_ok hconfig]
  cases Setting.ofKey? key with
  | some s => exact ⟨_, w', rfl, hstanding⟩
  | none => exact ⟨_, w', rfl, hstanding⟩

/-- **Writing the file** gives it these members and leaves the memory. -/
theorem run_writeRaw (h : Standing m home w file memory)
    (ht : (Json.ofTable t).Faithful Json.maxDepth) :
    ∃ p w', (writeRaw (Json.ofTable t)).run w = .ok p w' ∧ Standing m home w' (some t) memory := by
  obtain ⟨p, w', hwrite, ⟨files, rfl⟩, hholds⟩ := h.stands.takes t ht
  exact ⟨p, _, hwrite, h.home_eq, hholds, h.remembers⟩

/-- Writing the defaults replaces the file and leaves what is remembered. -/
theorem run_writeDefaults (h : Standing m home w file memory) :
    ∃ p w', writeDefaults.run w = .ok p w' ∧
      Standing m home w' (some (Settings.defaultTable home)) memory := by
  rw [SettingsFile.run_writeDefaults, h.home_eq]
  exact h.run_writeRaw (faithful_defaultTable home)

/-- The given settings are put among what the file holds, and the manager remembers them. -/
theorem run_writeGiven (h : Standing m home w file memory)
    (hwritable : (memory.getD (loaded file)).Writable) :
    ∃ p w', (writeGiven m).run w = .ok p w' ∧
      Standing m home w' (some ((memory.getD (loaded file)).merge (file.getD {})))
        (some (memory.getD (loaded file))) := by
  obtain ⟨w₁, hconfig, hstanding⟩ := h.run_config
  obtain ⟨p, w', hwrite, hwritten⟩ :=
    hstanding.run_writeRaw (Settings.faithful_merge h.stands.faithful hwritable)
  refine ⟨p, w', ?_, hwritten⟩
  refine (Shell.run_bind_ok h.stands.run_readRaw _).trans ?_
  exact (Shell.run_bind_ok hconfig _).trans hwrite

/-- **Saving** puts the settings that are handed over, or else those in memory, among what the file
holds. -/
theorem run_save (h : Standing m home w file memory) (given : Option Settings)
    (hwritable : ((given.or memory).getD (loaded file)).Writable) :
    ∃ p w', (save m given).run w = .ok p w' ∧
      Standing m home w' (some (((given.or memory).getD (loaded file)).merge (file.getD {})))
        (some ((given.or memory).getD (loaded file))) := by
  cases given with
  | none =>
    rw [Option.none_or] at hwritable ⊢
    exact h.run_writeGiven hwritable
  | some c =>
    -- The manager remembers the settings before it reads the file, and writes what it remembers.
    have hkept : Standing m home { w with settings := w.settings.put m c } file (some c) :=
      h.of_same ⟨rfl, rfl, rfl⟩ (Table.get?_put_self _ _ _)
    obtain ⟨p, w', hwrite, hwritten⟩ := hkept.run_writeGiven hwritable
    have hmodify : (modify fun w => { w with settings := w.settings.put m c } : Shell PUnit).run w
        = .ok ⟨⟩ { w with settings := w.settings.put m c } := rfl
    exact ⟨p, w', (Shell.run_bind_ok hmodify _).trans hwrite, hwritten⟩

/-- **Setting a value** that is accepted among the settings that are loaded puts them all into the file and
into memory. -/
theorem run_set (h : Standing m home w file memory) {s : Setting} {j : Json} {c : Settings}
    (hreads : ∀ x, j = .str x → Json.decode (Json.str x).encode = .ok (.str x))
    (hc : Settings.ofMembers ((loaded file).members.put s.key j) = .ok c) :
    ∃ w', (set m s.key j).run w = .ok () w' ∧
      Standing m home w' (some (c.merge (created home file))) (some c) := by
  obtain ⟨w₁, hload, hstanding⟩ := h.run_load
  have hwritable := Settings.writable_of_members_put h.stands.writable hreads hc
  obtain ⟨p, w', hsave, hsaved⟩ := hstanding.run_save (some c) hwritable
  refine ⟨w', ?_, hsaved⟩
  unfold set
  rw [Shell.run_bind_ok (run_setting s w), Shell.run_bind_ok hload, hc,
    Shell.run_bind_ok (Shell.run_ofExcept_ok _ c w₁)]
  exact Shell.run_bind_ok hsave _

/-- A value that is not accepted among them is refused, after the file was loaded. -/
theorem run_set_rejected (h : Standing m home w file memory) {s : Setting} {j : Json} {r : Report}
    (hr : Settings.ofMembers ((loaded file).members.put s.key j) = .error r) :
    ∃ w', (set m s.key j).run w = .error (.rejected r) w' ∧
      Standing m home w' (some (created home file)) memory := by
  obtain ⟨w₁, hload, hstanding⟩ := h.run_load
  refine ⟨w₁, ?_, hstanding⟩
  unfold set
  rw [Shell.run_bind_ok (run_setting s w), Shell.run_bind_ok hload, hr]
  exact Shell.run_bind_error (Shell.run_ofExcept_error _ r w₁) _

/-- **Taking a setting out** removes its member from the file and everything from memory. -/
theorem run_unset (h : Standing m home w file memory) (s : Setting) :
    ∃ w', (unset m s.key).run w = .ok () w' ∧
      Standing m home w' (some ((file.getD {}).remove s.key)) none := by
  obtain ⟨p, w₁, hwrite, hwritten⟩ :=
    h.run_writeRaw (Json.faithful_remove h.stands.faithful (RawText.ofString s.key))
  refine ⟨{ w₁ with settings := w₁.settings.remove m }, ?_,
    hwritten.of_same ⟨rfl, rfl, rfl⟩ (Table.get?_remove_self _ _)⟩
  unfold unset
  rw [Shell.run_bind_ok (run_setting s w), Shell.run_bind_ok h.stands.run_readRaw]
  exact (Shell.run_bind_ok hwrite _).trans rfl

end Standing

/-! ## A small file -/

/-- A tree in which there is little but a settings file. -/
def smallFiles (bytes : List UInt8) : FileTree :=
  ⟨⟨[(["h"], .directory), (["h", ".cmdsh"], .directory),
    (["h", ".cmdsh", "config.json"], .file (.bytes bytes))]⟩⟩

/-- In the small tree the settings file has the given bytes. -/
theorem read_smallFiles (bytes : List UInt8) (cwd : WorkingDirectory) :
    (smallFiles bytes).read cwd "/h/.cmdsh/config.json"
      = .ok (["h", ".cmdsh", "config.json"], .bytes bytes) := by
  have hname (c : String) (hc : ¬(c = "" ∨ c = ".") ∧ ¬c = ".." ∧ c.utf8ByteSize ≤ FileTree.maxName) :
      FileTree.IsName c := ⟨hc.1, hc.2.1, hc.2.2⟩
  have hleads : FileTree.Leads (smallFiles bytes) .followed FileTree.maxLinks []
      ["", "h", ".cmdsh", "config.json"]
      (.found (["h", ".cmdsh"] ++ ["config.json"]) (.file (.bytes bytes))) := by
    refine .skip (.inl rfl) (.enter (hname "h" (by decide)) rfl (by decide) ?_)
    refine .enter (hname ".cmdsh" (by decide)) rfl (by decide) ?_
    exact .file (hname "config.json" (by decide)) rfl
  exact FileTree.read_eq_ok_iff.mpr (FileTree.walk_eq_ok_iff.mpr hleads)

/-- There the file says what was written down. -/
theorem says_of_files {t : Table RawText Json} (hhome : w.home = "/h")
    (hfiles : w.files = smallFiles (Utf8.encode ((Json.ofTable t).encode ++ "\n").toList))
    (ht : (Json.ofTable t).Faithful Json.maxDepth)
    (hdoubles : ∀ x ∈ (Json.ofTable t).doubles, Json.DoubleReadsBack x) : Says w t := by
  have hname : Files.fileName (pathOf w.home).text = .ok "/h/.cmdsh/config.json" := by
    rw [hhome]
    rfl
  have hread := read_smallFiles (Utf8.encode ((Json.ofTable t).encode ++ "\n").toList) w.cwd
  rw [← hfiles] at hread
  exact ⟨_, _, hname, hread, parse_encode ht, hdoubles⟩

/-- An object with one faithful member is faithful. -/
theorem faithful_singleton (key : String) {j : Json} (hj : j.Faithful (Json.maxDepth - 1)) :
    (Json.ofTable ⟨[(RawText.ofString key, j)]⟩).Faithful Json.maxDepth := by
  refine Json.faithful_ofTable_iff.mpr ⟨List.pairwise_singleton _ _, ?_⟩
  intro m hm
  rw [List.mem_singleton.mp hm]
  exact ⟨RawText.joined_ofString key, hj⟩

end Manager

end CommandShell
