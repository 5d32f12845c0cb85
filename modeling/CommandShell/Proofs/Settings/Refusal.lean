import CommandShell.Proofs.Settings.Startup

/-! # When a setting cannot be set

To set a value can fail for many reasons: there is no such setting, the reader gives up on the file, the value
is refused, or the file says a value that is no object, into which nothing can be put. In none of these cases
the files change. What a manager answers stays the same in all but the last one: there the new settings were
taken into memory before the file was read again, and the manager goes on to answer with them
(`answer_of_stranded`). So a failure changes no answer exactly if these settings are what it answered before
(`failed_set_iff`). -/

namespace CommandShell

/-- The world after a manager took settings into memory. -/
def World.remembering (w : World) (m : ManagerId) (c : Settings) : World :=
  { w with settings := w.settings.put m c }

namespace SettingsFile

open World

variable {w u : World} {data : List UInt8} {c : Settings} {f : Fault}

/-! ## What bytes give -/

/-- The settings that bytes give when they are loaded: those that they say, or none if these are rejected or
the bytes say no value. It is a fault if the reader gives up on them. -/
def loadedBytes (data : List UInt8) : Except Fault Settings :=
  match parse data with
  | .error f => .error f
  | .ok (.error _) => .ok .empty
  | .ok (.ok j) =>
    match Settings.ofJson j with
    | .ok c => .ok c
    | .error _ => .ok .empty

/-- Bytes say a value that is no object. -/
def SaysOther (data : List UInt8) : Prop := ∃ j, Means data j ∧ j.members? = none

/-- Bytes that mean a value are parsed as this value. -/
theorem parse_of_means {j : Json} (h : Means data j) : parse data = .ok (.ok j) := by
  obtain ⟨j', hparse, hmeans⟩ | ⟨_, _, hno, _⟩ | ⟨_, _, hup⟩ := parse_cases data
  · rw [hparse, h.unique hmeans]
  · exact absurd h (hno j)
  · exact absurd hup h.not_givesUp

/-- Bytes that are parsed as a value mean it. -/
theorem means_of_parse {j : Json} (h : parse data = .ok (.ok j)) : Means data j := by
  obtain ⟨j', hparse, hmeans⟩ | ⟨_, hparse, _⟩ | ⟨_, hparse, _⟩ := parse_cases data
  · rw [h] at hparse
    cases hparse
    exact hmeans
  · rw [h] at hparse
    cases hparse
  · rw [h] at hparse
    cases hparse

/-- A value that is no object gives no settings. -/
theorem SaysOther.loadedBytes (h : SaysOther data) : loadedBytes data = .ok .empty := by
  obtain ⟨j, hmeans, hmembers⟩ := h
  simp only [SettingsFile.loadedBytes, parse_of_means hmeans, Settings.ofJson, hmembers]

/-- Events leave the settings file. -/
theorem Reads.emitted (h : Reads w data) (es : List Event) : Reads (w.emitted es) data :=
  h.of_same ⟨rfl, rfl, rfl⟩

/-- What a manager remembers leaves the settings file. -/
theorem Reads.remembering (h : Reads w data) (m : ManagerId) (c : Settings) :
    Reads (w.remembering m c) data :=
  h.of_same ⟨rfl, rfl, rfl⟩

/-- Loading a file gives what its bytes give, perhaps after some reports. -/
theorem Reads.run_load (h : Reads w data) (hc : loadedBytes data = .ok c) (create : Bool) :
    ∃ es, (load create).run w = .ok c (w.emitted es) := by
  unfold loadedBytes at hc
  split at hc
  · cases hc
  · -- No value is read, which is reported.
    rename_i hparse
    cases hc
    exact ⟨_, h.run_load_ok (h.run_readRaw_malformed hparse) rfl create⟩
  · rename_i j hparse
    split at hc
    · rename_i hj
      cases hc
      exact ⟨[], by rw [emitted_nil]; exact h.run_load_ok (h.run_readRaw hparse) hj create⟩
    · rename_i hj
      cases hc
      exact ⟨_, h.run_load_rejected (h.run_readRaw hparse) hj create⟩

/-- Where the reader gives up, so does loading, and nothing changes. -/
theorem Reads.run_load_gaveUp (h : Reads w data) (hf : loadedBytes data = .error f) (create : Bool) :
    (load create).run w = .error f w := by
  unfold loadedBytes at hf
  split at hf
  · rename_i hparse
    cases hf
    exact h.run_load_error (h.run_readRaw_error hparse) create
  · cases hf
  · split at hf
    · cases hf
    · cases hf

end SettingsFile

namespace Manager

open SettingsFile

variable {m : ManagerId} {s : Setting} {w w' : World} {data : List UInt8} {c : Settings} {f : Fault}

/-! ## What a manager answers -/

/-- What a manager answers when it is asked for a setting: the value, or the fault with which it ends. -/
def answer (m : ManagerId) (s : Setting) (w : World) : Except Fault Setting.Value :=
  match (get m s).run w with
  | .ok v _ => .ok v
  | .error f _ => .error f

/-- What a manager goes by: what it has in memory, or else what the file gives. -/
def source (m : ManagerId) (w : World) (data : List UInt8) : Except Fault Settings :=
  match w.settings.get? m with
  | some c => .ok c
  | none => loadedBytes data

/-- **A manager answers** with the values of what it goes by. -/
theorem answer_eq (h : Reads w data) (m : ManagerId) (s : Setting) :
    answer m s w = (source m w data).map fun c => c.effective w.home s := by
  unfold answer source get
  cases hmemory : w.settings.get? m with
  | some c =>
    rw [Shell.run_bind_ok (run_config_cached hmemory)]
    rfl
  | none =>
    cases hbytes : loadedBytes data with
    | ok c =>
      obtain ⟨es, hload⟩ := h.run_load hbytes true
      rw [Shell.run_bind_ok (run_config_fresh hmemory hload)]
      rfl
    | error f =>
      have hconfig : (config m).run w = .error f w := by
        unfold config
        rw [Shell.run_bind_ok (EStateM.run_get w), hmemory]
        exact Shell.run_bind_error (h.run_load_gaveUp hbytes true) _
      rw [Shell.run_bind_error hconfig]
      rfl

/-- Reports change no answer. -/
theorem answer_emitted (h : Reads w data) (m : ManagerId) (s : Setting) (es : List Event) :
    answer m s (w.emitted es) = answer m s w := by
  rw [answer_eq h, answer_eq (h.emitted es)]
  rfl

/-- With settings in memory a manager answers with their values. -/
theorem answer_remembering (h : Reads w data) (m : ManagerId) (s : Setting) (c : Settings) :
    answer m s (w.remembering m c) = .ok (c.effective w.home s) := by
  have hsource : source m (w.remembering m c) data = .ok c := by
    simp only [source, World.remembering, Table.get?_put_self]
  rw [answer_eq (h.remembering m c), hsource]
  rfl

/-! ## How setting a value ends -/

/-- Settings in memory can be put among the members that were read. -/
theorem exists_run_writeGiven (h : Reads w data) (hmemory : w.settings.get? m = some c) {j : Json}
    {t : Table RawText Json} {es : List Event} (hraw : readRaw.run w = .ok j (w.emitted es))
    (hj : j.members? = some t) : ∃ w', (writeGiven m).run w = .ok (pathOf w.home) w' := by
  have hconfig : (config m).run (w.emitted es) = .ok c (w.emitted es) := run_config_cached hmemory
  obtain ⟨w', hwrite⟩ := (h.emitted es).run_writeRaw (Json.ofTable (c.merge t))
  refine ⟨w', ?_⟩
  unfold writeGiven
  rw [Shell.run_bind_ok hraw, hj]
  exact (Shell.run_bind_ok hconfig _).trans hwrite

/-- Settings that are handed over are taken into memory before anything else. -/
theorem run_save_given (m : ManagerId) (c : Settings) (w : World) :
    (save m (some c)).run w = (writeGiven m).run (w.remembering m c) := by
  have hmodify : (modify fun w => { w with settings := w.settings.put m c } : Shell PUnit).run w
      = .ok ⟨⟩ (w.remembering m c) := rfl
  exact Shell.run_bind_ok hmodify fun _ => writeGiven m

/-- They can be written into a file that says an object, or no value. -/
theorem exists_run_save (h : Reads w data) (hother : ¬SaysOther data)
    (hbytes : ∀ f, parse data ≠ .error f) (m : ManagerId) (c : Settings) :
    ∃ p w', (save m (some c)).run w = .ok p w' := by
  rw [run_save_given]
  have hkept := h.remembering m c
  have hmemory : (w.settings.put m c).get? m = some c := Table.get?_put_self _ _ _
  cases hparse : parse data with
  | error f => exact absurd hparse (hbytes f)
  | ok value =>
    cases value with
    | error mistake =>
      -- Text that says no value is read as an object without members.
      have hraw := hkept.run_readRaw_malformed hparse
      exact ⟨_, exists_run_writeGiven hkept hmemory hraw rfl⟩
    | ok j =>
      cases hj : j.members? with
      | none => exact absurd ⟨j, means_of_parse hparse, hj⟩ hother
      | some t =>
        have hraw : readRaw.run (w.remembering m c) = .ok j ((w.remembering m c).emitted []) := by
          rw [World.emitted_nil]
          exact hkept.run_readRaw hparse
        exact ⟨_, exists_run_writeGiven hkept hmemory hraw hj⟩

/-- They cannot be written into a file that says another value, and stay in memory nevertheless. -/
theorem run_save_saysOther (h : Reads w data) (hother : SaysOther data) (m : ManagerId) (c : Settings) :
    ∃ f, (save m (some c)).run w = .error f (w.remembering m c) := by
  obtain ⟨j, hmeans, hj⟩ := hother
  have hkept := h.remembering m c
  refine ⟨.noAttribute j.kindName "update", ?_⟩
  rw [run_save_given]
  unfold writeGiven
  rw [Shell.run_bind_ok (hkept.run_readRaw (parse_of_means hmeans)), hj]
  rfl

/-- A value is **stranded** if it is accepted for its setting while the file says a value that is no object. -/
def Stranded (data : List UInt8) (key : String) (value : Json) (s : Setting) (v : Option Setting.Value) :
    Prop :=
  Setting.ofKey? key = some s ∧ s.check (some value) = .ok v ∧ SaysOther data

/-- Once the file was loaded, and the value accepted, setting it is saving what results. -/
theorem run_set_accepted {s : Setting} {value : Json} {c₀ c : Settings} {w₁ : World}
    (hload : (load true).run w = .ok c₀ w₁)
    (hc : Settings.ofMembers (c₀.members.put s.key value) = .ok c) :
    (set m s.key value).run w = (save m (some c) >>= fun _ => pure ()).run w₁ := by
  unfold set
  rw [Shell.run_bind_ok (run_setting s w), Shell.run_bind_ok hload, hc,
    Shell.run_bind_ok (Shell.run_ofExcept_ok _ c _)]

/-- **A stranded value** cannot be set, and stays in memory without anything else. -/
theorem run_set_of_stranded (h : Reads w data) {key : String} {value : Json} {v : Option Setting.Value}
    (hstranded : Stranded data key value s v) (m : ManagerId) :
    ∃ f es c, (∀ s', c.get? s' = if s = s' then v else none) ∧
      (set m key value).run w = .error f ((w.emitted es).remembering m c) := by
  obtain ⟨hkey, hv, hother⟩ := hstranded
  obtain rfl := Setting.ofKey?_eq_some hkey
  -- Loading gives no settings, so the value is the only one among those that are to be saved.
  obtain ⟨es, hload⟩ := h.run_load hother.loadedBytes true
  obtain ⟨c, hc, hget⟩ := Settings.exists_ofMembers_members_put .empty hv
  obtain ⟨f, hsave⟩ := run_save_saysOther (h.emitted es) hother m c
  refine ⟨f, es, c, fun s' => ?_, ?_⟩
  · rw [hget s', get?_empty]
  · rw [run_set_accepted hload hc]
    exact Shell.run_bind_error hsave _

/-- **Another value** is set, or else nothing happens but that something is reported. -/
theorem run_set_of_not_stranded (h : Reads w data) {key : String} {value : Json}
    (hno : ∀ s v, ¬Stranded data key value s v) (m : ManagerId) :
    (∃ w', (set m key value).run w = .ok () w') ∨
      ∃ f es, (set m key value).run w = .error f (w.emitted es) := by
  cases hkey : Setting.ofKey? key with
  | none =>
    -- There is no such setting.
    refine .inr ⟨.unknownSetting key, [], ?_⟩
    rw [World.emitted_nil]
    exact Shell.run_bind_error (run_setting_unknown hkey w) _
  | some s =>
    obtain rfl := Setting.ofKey?_eq_some hkey
    cases hbytes : loadedBytes data with
    | error f =>
      -- The reader gives up.
      refine .inr ⟨f, [], ?_⟩
      unfold set
      rw [World.emitted_nil, Shell.run_bind_ok (run_setting s w)]
      exact Shell.run_bind_error (h.run_load_gaveUp hbytes true) _
    | ok c₀ =>
      obtain ⟨es, hload⟩ := h.run_load hbytes true
      obtain ⟨r, hr⟩ | ⟨v, c, hv, hc, -⟩ := Settings.ofMembers_members_put c₀ s value
      · -- The value is refused.
        refine .inr ⟨.rejected r, es, ?_⟩
        unfold set
        rw [Shell.run_bind_ok (run_setting s w), Shell.run_bind_ok hload, hr]
        exact Shell.run_bind_error (Shell.run_ofExcept_error _ r _) _
      · -- The value is accepted, so the file says an object or no value.
        have hother : ¬SaysOther data := fun hother => hno s v ⟨hkey, hv, hother⟩
        have hparse (f : Fault) : parse data ≠ .error f := by
          intro hparse
          simp only [loadedBytes, hparse] at hbytes
          cases hbytes
        obtain ⟨p, w', hsave⟩ := exists_run_save (h.emitted es) hother hparse m c
        refine .inl ⟨w', ?_⟩
        rw [run_set_accepted hload hc]
        exact Shell.run_bind_ok hsave _

/-! ## What a failure changes -/

/-- A stranded value is what the manager answers from then on, and the default for all other settings. -/
theorem answer_of_stranded (h : Reads w data) {key : String} {value : Json} {v : Option Setting.Value}
    (hstranded : Stranded data key value s v) (m : ManagerId) :
    ∃ f w', (set m key value).run w = .error f w' ∧ w'.files = w.files ∧ ∀ s',
      answer m s' w' = .ok (if s = s' then v.getD (s.default w.home) else s'.default w.home) := by
  obtain ⟨f, es, c, hc, hrun⟩ := run_set_of_stranded h hstranded m
  refine ⟨f, _, hrun, rfl, fun s' => ?_⟩
  rw [answer_remembering (h.emitted es), Settings.effective, hc s']
  by_cases hs : s = s'
  · rw [if_pos hs, if_pos hs, hs]
    rfl
  · rw [if_neg hs, if_neg hs]
    rfl

/-- **What a failed setting changes**: no file, and no answer of the manager unless the value is stranded.
Then the answers are the same only if they were the new value for its setting and the default for all
others. -/
theorem failed_set_iff {key : String} {value : Json} (h : Reads w data)
    (hset : (set m key value).run w = .error f w') :
    w'.files = w.files ∧
      ((∀ s, answer m s w' = answer m s w) ↔ ∀ s v, Stranded data key value s v → ∀ s',
        answer m s' w = .ok (if s = s' then v.getD (s.default w.home) else s'.default w.home)) := by
  by_cases hstranded : ∃ s v, Stranded data key value s v
  · obtain ⟨s, v, hs⟩ := hstranded
    obtain ⟨f', w₁, hrun, hfiles, hafter⟩ := answer_of_stranded h hs m
    rw [hset] at hrun
    cases hrun
    refine ⟨hfiles, fun hsame s₁ v₁ hs₁ s' => ?_, fun hbefore s' => ?_⟩
    · -- Key and value leave no choice of the setting and of what is accepted for it.
      obtain ⟨hkey, hv, -⟩ := hs
      obtain ⟨hkey₁, hv₁, -⟩ := hs₁
      rw [hkey] at hkey₁
      cases hkey₁
      rw [hv] at hv₁
      cases hv₁
      rw [← hsame s', hafter s']
    · rw [hafter s', hbefore s v hs s']
  · have hno (s : Setting) (v : Option Setting.Value) : ¬Stranded data key value s v :=
      fun hs => hstranded ⟨s, v, hs⟩
    obtain ⟨w₁, hrun⟩ | ⟨f', es, hrun⟩ := run_set_of_not_stranded h hno m
    · rw [hset] at hrun
      cases hrun
    · rw [hset] at hrun
      cases hrun
      exact ⟨rfl, iff_of_true (fun s => answer_emitted h m s es) fun s v hs => absurd hs (hno s v)⟩

/-! ## A file that says a list -/

/-- The text of a list without items. -/
def listText : List Char := "[]\n".toList

/-- The file of the sample reads as the text of a list. -/
theorem reads_list : Reads (worldOf (Utf8.encode listText)) (Utf8.encode listText) :=
  reads_worldOf _

/-- The list is no object. -/
theorem saysOther_list : SaysOther (Utf8.encode listText) :=
  ⟨.arr [], ⟨listText, Utf8.decode_encode _, rfl⟩, rfl⟩

/-- A manager without anything in memory answers with the defaults. -/
theorem answer_list (m : ManagerId) (s : Setting) :
    answer m s (worldOf (Utf8.encode listText)) = .ok (s.default "/h") := by
  have hsource : source m (worldOf (Utf8.encode listText)) (Utf8.encode listText) = .ok .empty :=
    saysOther_list.loadedBytes
  rw [answer_eq reads_list, hsource]
  exact congrArg Except.ok (effective_empty "/h" s)

/-- Setting a flag to its default fails there, and changes no answer. -/
theorem failed_set_flag :
    Reads (worldOf (Utf8.encode listText)) (Utf8.encode listText) ∧
      ∃ f w', (set 0 "simple" (.str "no")).run (worldOf (Utf8.encode listText)) = .error f w' ∧
        w'.files = (worldOf (Utf8.encode listText)).files ∧
        ∀ s, answer 0 s w' = answer 0 s (worldOf (Utf8.encode listText)) := by
  have hstranded : Stranded (Utf8.encode listText) "simple" (.str "no") .simple (some (.flag false)) :=
    ⟨rfl, rfl, saysOther_list⟩
  obtain ⟨f, w', hset, -⟩ := answer_of_stranded reads_list hstranded 0
  obtain ⟨hfiles, hiff⟩ := failed_set_iff reads_list hset
  refine ⟨reads_list, f, w', hset, hfiles, hiff.mpr fun s v hs s' => ?_⟩
  obtain ⟨hkey, hv, -⟩ := hs
  cases hkey
  cases hv
  rw [answer_list]
  by_cases hs : Setting.simple = s'
  · subst hs
    rfl
  · rw [if_neg hs]
    rfl

/-- **Setting a prompt fails there, and the manager answers with it nevertheless.** -/
theorem stranded_prompt :
    Reads (worldOf (Utf8.encode listText)) (Utf8.encode listText) ∧
      answer 0 .prompt (worldOf (Utf8.encode listText)) = .ok (.text "$ ") ∧
      ∃ f w', (set 0 "prompt" (.str "> ")).run (worldOf (Utf8.encode listText)) = .error f w' ∧
        answer 0 .prompt w' = .ok (.text "> ") ∧ Setting.Value.text "> " ≠ .text "$ " := by
  have hstranded : Stranded (Utf8.encode listText) "prompt" (.str "> ") .prompt (some (.text "> ")) :=
    ⟨rfl, rfl, saysOther_list⟩
  obtain ⟨f, w', hset, -, hafter⟩ := answer_of_stranded reads_list hstranded 0
  exact ⟨reads_list, answer_list 0 .prompt, f, w', hset, hafter .prompt, by decide⟩

end Manager

end CommandShell
