import CommandShell.Proofs.Settings.Standing

/-! # When what is remembered drifts from the file

The settings of a manager are kept twice, in the file and in its memory, and its calls change one or the
other or both (`Act.next`). A manager is in step if it gives every setting the value that a new manager
finds. Asking, loading and taking a setting out keep it in step; setting and saving do so exactly if the
settings that it remembers then cover the file, and writing the defaults exactly if it remembers no others
(`Act.Keeps`). So a manager stays in step through any calls exactly if each of them keeps it so
(`staysInStep_iff`). -/

namespace CommandShell

namespace SettingsFile

variable {home : String} {c : Settings} {t : Table RawText Json}

/-- A setting is the default where no other value is given. -/
theorem effective_eq_default_iff {s : Setting} :
    c.effective home s = s.default home ↔ ∀ v, c.get? s = some v → v = s.default home := by
  rw [Settings.effective]
  cases c.get? s with
  | none => simp
  | some v => simp

/-- Settings that are merged into a file with these members are all that it gives afterwards: either the
merged file is accepted, and gives nothing but defaults beside them, or it is rejected and gives nothing,
and they are defaults themselves. -/
structure Covers (home : String) (c : Settings) (t : Table RawText Json) : Prop where
  /-- If the file completes the settings, it has only defaults for what they leave open. -/
  accepted : c.Completed t →
    ∀ s v, c.get? s = none → s.check (t.get? s.key) = .ok (some v) → v = s.default home
  /-- If it does not, the settings are defaults. -/
  rejected : ¬c.Completed t → ∀ s v, c.get? s = some v → v = s.default home

/-- **Settings cover a file exactly if they have the values that the merged file gives.** -/
theorem covers_iff :
    Covers home c t ↔ ∀ s, c.effective home s = (loaded (some (c.merge t))).effective home s := by
  by_cases h : c.Completed t
  · have hvalues (s : Setting) : c.effective home s = (loaded (some (c.merge t))).effective home s ↔
        ∀ v, c.get? s = none → s.check (t.get? s.key) = .ok (some v) → v = s.default home := by
      cases hs : c.get? s with
      | some u => simp [Settings.effective, get?_loaded_merge h hs, hs]
      | none =>
        rw [check_eq_loaded_merge h hs, Settings.effective, Settings.effective, hs]
        cases (loaded (some (c.merge t))).get? s with
        | none => simp
        | some v => simp [eq_comm]
    simp only [hvalues]
    exact ⟨fun hc s v => hc.accepted h s v, fun hc => ⟨fun _ => hc, fun hn => absurd h hn⟩⟩
  · have hdefault (s : Setting) : (loaded (some (c.merge t))).effective home s = s.default home := by
      rw [loaded_merge_of_not_completed h, effective_empty]
    simp only [hdefault, effective_eq_default_iff]
    exact ⟨fun hc => hc.rejected h, fun hc => ⟨fun hcompleted => absurd hcompleted h, fun _ => hc⟩⟩

/-- The settings that a file gives cover it. -/
theorem covers_loaded (home : String) (file : Option (Table RawText Json)) :
    Covers home (loaded file) (file.getD {}) := by
  obtain hloaded | ⟨⟨r, hr⟩, hempty⟩ := loaded_cases file
  · have hall := Settings.ofMembers_eq_ok_iff.mp hloaded
    refine ⟨fun _ s v hs hv => ?_, fun h => absurd (fun s _ => ⟨_, hall s⟩) h⟩
    rw [hall s, hs] at hv
    cases hv
  · rw [hempty]
    refine ⟨fun h => ?_, fun _ s v hs => ?_⟩
    · -- A file that completes no settings at all is accepted.
      obtain ⟨c, hc⟩ := Settings.exists_ofMembers fun s => h s (get?_empty s)
      rw [hr] at hc
      cases hc
    · rw [get?_empty] at hs
      cases hs

/-- **An accepted value covers an accepted file**, if it is not null. -/
theorem covers_of_put {file : Option (Table RawText Json)}
    (h : Settings.ofMembers (file.getD {}) = .ok (loaded file)) {s : Setting} {v : Setting.Value}
    (hc : ∀ s', c.get? s' = if s = s' then some v else (loaded file).get? s') :
    Covers home c (created home file) := by
  obtain ⟨d, hd, heffective, -⟩ := exists_ofMembers_created home h
  have hall := Settings.ofMembers_eq_ok_iff.mp hd
  refine ⟨fun _ s' u hs' hu => ?_, fun h => absurd (fun s' _ => ⟨_, hall s'⟩) h⟩
  rw [hall s'] at hu
  rw [hc s'] at hs'
  split at hs'
  · cases hs'
  · -- Loading gives the default where nothing was loaded.
    have heq := heffective s'
    rw [Settings.effective, Settings.effective, hs', Except.ok.inj hu] at heq
    exact heq

end SettingsFile

namespace Manager

open SettingsFile

/-! ## The calls of a manager -/

/-- A call of a manager. -/
inductive Act
  | get (key : String) (otherwise : Json)
  | load (create : Bool)
  | set (key : String) (value : Json)
  | unset (key : String)
  | save (given : Option Settings)
  | writeDefaults

/-- What the file holds, if it is there, and what the manager remembers. -/
structure Copies where
  /-- The members of the file. -/
  file : Option (Table RawText Json)
  /-- The settings in memory. -/
  memory : Option Settings

/-- These settings are in memory and were merged into a file with these members. -/
def Copies.merged (c : Settings) (t : Table RawText Json) : Copies := ⟨some (c.merge t), some c⟩

namespace Act

/-- To make a call. -/
def perform (m : ManagerId) : Act → Shell Unit
  | get key otherwise => do let _ ← getKey m key otherwise
  | load create => do let _ ← SettingsFile.load create
  | set key value => Manager.set m key value
  | unset key => Manager.unset m key
  | save given => do let _ ← Manager.save m given
  | writeDefaults => do let _ ← SettingsFile.writeDefaults

/-- A text that is set is one that JSON reads back, and so are those in settings that are saved. -/
def Proper : Act → Prop
  | set _ value => ∀ x, value = .str x → Json.decode (Json.str x).encode = .ok (.str x)
  | save given => ∀ c, given = some c → c.Writable
  | get _ _ | load _ | unset _ | writeDefaults => True

/-- What a call makes of the copies, if it returns. -/
def next (home : String) (σ : Copies) : Act → Option Copies
  | get _ _ =>
    some ⟨if σ.memory.isSome then σ.file else some (created home σ.file),
      some (σ.memory.getD (loaded σ.file))⟩
  | load create => some { σ with file := if create then some (created home σ.file) else σ.file }
  | set key value =>
    match Setting.ofKey? key with
    | none => none
    | some s =>
      match Settings.ofMembers ((loaded σ.file).members.put s.key value) with
      | .ok c => some (.merged c (created home σ.file))
      | .error _ => none
  | unset key => (Setting.ofKey? key).map fun s => ⟨some ((σ.file.getD {}).remove s.key), none⟩
  | save given => some (.merged ((given.or σ.memory).getD (loaded σ.file)) (σ.file.getD {}))
  | writeDefaults => some { σ with file := some (Settings.defaultTable home) }

/-- Whether a call keeps the memory in step with the file. -/
def Keeps (home : String) (σ : Copies) : Act → Prop
  | set key value => ∀ s c, Setting.ofKey? key = some s →
      Settings.ofMembers ((loaded σ.file).members.put s.key value) = .ok c →
        Covers home c (created home σ.file)
  | save given => ∀ c, given.or σ.memory = some c → Covers home c (σ.file.getD {})
  | writeDefaults => ∀ c, σ.memory = some c → ∀ s v, c.get? s = some v → v = s.default home
  | get _ _ | load _ | unset _ => True

/-- All the calls keep the memory in step. -/
def AllKeep (home : String) : List Act → Copies → Prop
  | [], _ => True
  | a :: acts, σ => a.Keeps home σ ∧ ∀ σ', a.next home σ = some σ' → AllKeep home acts σ'

end Act

/-- The memory has the values that the file gives. -/
def Copies.InStep (home : String) (σ : Copies) : Prop :=
  ∀ c, σ.memory = some c → ∀ s, c.effective home s = (loaded σ.file).effective home s

variable {home : String} {σ σ' : Copies} {a : Act}

/-- Settings that were merged into a file are in step with it exactly if they cover it. -/
theorem Copies.inStep_merged {c : Settings} {t : Table RawText Json} :
    (merged c t).InStep home ↔ Covers home c t := by
  rw [covers_iff]
  constructor
  · exact fun h => h c rfl
  · intro h c' hc'
    cases hc'
    exact h

/-- Where the file holds the defaults, the memory is in step if it holds no other values. -/
theorem Copies.inStep_defaults {memory : Option Settings} :
    Copies.InStep home ⟨some (Settings.defaultTable home), memory⟩ ↔
      ∀ c, memory = some c → ∀ s v, c.get? s = some v → v = s.default home := by
  have hdefault (s : Setting) :
      (loaded (some (Settings.defaultTable home))).effective home s = s.default home := by
    exact (effective_loaded_created home none s).trans (effective_empty home s)
  simp only [InStep, hdefault, effective_eq_default_iff]

/-- **A call leaves the memory in step exactly if it keeps it so.** -/
theorem Act.inStep_next (h : σ.InStep home) (hnext : a.next home σ = some σ') :
    σ'.InStep home ↔ a.Keeps home σ := by
  cases a with
  | get key otherwise =>
    cases hnext
    refine iff_of_true ?_ trivial
    intro c hc s
    cases hc
    cases hmemory : σ.memory with
    | some c => exact h c hmemory s
    | none => exact (effective_loaded_created home σ.file s).symm
  | load create =>
    cases hnext
    refine iff_of_true ?_ trivial
    intro c hc s
    cases create with
    | false => exact h c hc s
    | true => exact (h c hc s).trans (effective_loaded_created home σ.file s).symm
  | unset key =>
    obtain ⟨s, -, rfl⟩ := Option.map_eq_some_iff.mp hnext
    refine iff_of_true ?_ trivial
    intro c hc
    cases hc
  | set key value =>
    simp only [next] at hnext
    split at hnext
    · cases hnext
    · rename_i s hkey
      split at hnext
      · rename_i c hc
        cases hnext
        -- Only a call that merges can leave the memory out of step, where this does not cover the file.
        rw [Copies.inStep_merged]
        refine ⟨fun hcovers s' c' hkey' hc' => ?_, fun hkeeps => hkeeps s c hkey hc⟩
        rw [hkey] at hkey'
        cases hkey'
        rw [hc] at hc'
        cases hc'
        exact hcovers
      · cases hnext
  | save given =>
    cases hnext
    rw [Copies.inStep_merged, Keeps]
    cases given.or σ.memory with
    | none => simp [covers_loaded]
    | some c => simp
  | writeDefaults =>
    cases hnext
    exact Copies.inStep_defaults

/-- So does a call that is refused. -/
theorem Act.keeps_of_next_eq_none (h : a.next home σ = none) : a.Keeps home σ := by
  cases a with
  | get key otherwise => trivial
  | load create => trivial
  | unset key => trivial
  | set key value =>
    intro s c hkey hc
    simp [next, hkey, hc] at h
  | save given => cases h
  | writeDefaults => cases h

/-- **Setting a value other than null in a file that is accepted** keeps the memory in step. -/
theorem Act.keeps_set (h : Settings.ofMembers (σ.file.getD {}) = .ok (loaded σ.file)) (key : String)
    {value : Json} (hnull : value ≠ .null) : (Act.set key value).Keeps home σ := by
  intro s c _ hc
  obtain ⟨r, hr⟩ | ⟨v?, c', hv, hc', hget⟩ := Settings.ofMembers_members_put (loaded σ.file) s value
  · rw [hc] at hr
    cases hr
  · rw [hc] at hc'
    cases hc'
    obtain ⟨v, rfl⟩ := Setting.isSome_of_check hnull hv
    exact covers_of_put h hget

/-! ## What is kept -/

/-- The manager keeps its settings in these places, and can write down what it remembers. -/
structure Tracks (m : ManagerId) (home : String) (w : World) (σ : Copies) : Prop where
  /-- The file and the memory are these. -/
  standing : Standing m home w σ.file σ.memory
  /-- What is in memory can be written down. -/
  writable : ∀ c, σ.memory = some c → c.Writable

/-- **A call does to the file and the memory what it does to the copies**, or it ends with a fault. -/
theorem Tracks.perform {m : ManagerId} {w : World} (h : Tracks m home w σ) (ha : a.Proper) :
    (∃ σ' w', a.next home σ = some σ' ∧ (a.perform m).run w = .ok () w' ∧ Tracks m home w' σ') ∨
      ∃ f w', a.next home σ = none ∧ (a.perform m).run w = .error f w' := by
  obtain ⟨hstanding, hwritable⟩ := h
  have hremembered : (σ.memory.getD (loaded σ.file)).Writable := by
    cases hmemory : σ.memory with
    | none => exact hstanding.stands.writable
    | some c => exact hwritable c hmemory
  have hunknown {key : String} (hkey : Setting.ofKey? key = none) {g : Setting → Shell Unit} :
      (setting key >>= g).run w = .error (.unknownSetting key) w :=
    Shell.run_bind_error (run_setting_unknown hkey w) g
  -- Each call succeeds with the copies that `next` tells, or `next` tells none and the call fails.
  cases a with
  | get key otherwise =>
    obtain ⟨j, w', hrun, hstanding'⟩ := hstanding.run_getKey key otherwise
    refine .inl ⟨_, w', rfl, Shell.run_bind_ok hrun _, hstanding', ?_⟩
    intro c hc
    cases hc
    exact hremembered
  | load create =>
    cases create with
    | true =>
      obtain ⟨w', hrun, hstanding'⟩ := hstanding.run_load
      exact .inl ⟨_, w', rfl, Shell.run_bind_ok hrun _, hstanding', hwritable⟩
    | false =>
      obtain ⟨w', hrun, hstanding'⟩ := hstanding.run_load_false
      exact .inl ⟨_, w', rfl, Shell.run_bind_ok hrun _, hstanding', hwritable⟩
  | unset key =>
    cases hkey : Setting.ofKey? key with
    | none =>
      refine .inr ⟨_, w, ?_, hunknown hkey⟩
      simp [Act.next, hkey]
    | some s =>
      obtain rfl := Setting.ofKey?_eq_some hkey
      obtain ⟨w', hrun, hstanding'⟩ := hstanding.run_unset s
      refine .inl ⟨⟨_, none⟩, w', by simp [Act.next, hkey], hrun, hstanding', ?_⟩
      intro c hc
      cases hc
  | set key value =>
    cases hkey : Setting.ofKey? key with
    | none =>
      refine .inr ⟨_, w, ?_, hunknown hkey⟩
      simp [Act.next, hkey]
    | some s =>
      obtain rfl := Setting.ofKey?_eq_some hkey
      -- The value is checked beside what is in the file, and only then merged.
      cases hc : Settings.ofMembers ((loaded σ.file).members.put s.key value) with
      | error r =>
        obtain ⟨w', hrun, -⟩ := hstanding.run_set_rejected hc
        exact .inr ⟨_, w', by simp [Act.next, hc], hrun⟩
      | ok c =>
        obtain ⟨w', hrun, hstanding'⟩ := hstanding.run_set ha hc
        refine .inl ⟨.merged c (created home σ.file), w', by simp [Act.next, hc], hrun, hstanding', ?_⟩
        intro c' hc'
        cases hc'
        exact Settings.writable_of_members_put hstanding.stands.writable ha hc
  | save given =>
    have hgiven : ((given.or σ.memory).getD (loaded σ.file)).Writable := by
      cases given with
      | none => exact hremembered
      | some c => exact ha c rfl
    obtain ⟨p, w', hrun, hstanding'⟩ := hstanding.run_save given hgiven
    refine .inl ⟨_, w', rfl, Shell.run_bind_ok hrun _, hstanding', ?_⟩
    intro c hc
    cases hc
    exact hgiven
  | writeDefaults =>
    obtain ⟨p, w', hrun, hstanding'⟩ := hstanding.run_writeDefaults
    exact .inl ⟨_, w', rfl, Shell.run_bind_ok hrun _, hstanding', hwritable⟩

/-! ## Staying in step -/

/-- A manager gives every setting the value that a manager finds that has nothing in memory yet. -/
def InStep (m : ManagerId) (w : World) : Prop :=
  ∀ s m', w.settings.get? m' = none →
    ∃ v w₁ w₂, (get m s).run w = .ok v w₁ ∧ (get m' s).run w = .ok v w₂

/-- A manager is in step now and after each of the calls. -/
def StaysInStep (m : ManagerId) : List Act → World → Prop
  | [], w => InStep m w
  | a :: acts, w => InStep m w ∧ ∀ w', (a.perform m).run w = .ok () w' → StaysInStep m acts w'

/-- Whether a manager is in step is told by the file and its memory. -/
theorem Tracks.inStep_iff {m : ManagerId} {w : World} (h : Tracks m home w σ) :
    InStep m w ↔ σ.InStep home := by
  have hget {m' : ManagerId} (hm' : w.settings.get? m' = none) (s : Setting) :
      ∃ w₁ w₂, (get m s).run w = .ok ((σ.memory.getD (loaded σ.file)).effective home s) w₁ ∧
        (get m' s).run w = .ok ((loaded σ.file).effective home s) w₂ := by
    obtain ⟨w₁, hrun, -⟩ := h.standing.run_get s
    obtain ⟨w₂, hrun', -⟩ := (Standing.of_stands h.standing.stands m').run_get s
    rw [hm', h.standing.home_eq] at hrun'
    exact ⟨w₁, w₂, hrun, hrun'⟩
  -- A manager with nothing in memory reads the file, so it serves as the one to compare with.
  constructor
  · intro hstep c hc s
    obtain ⟨m', hm'⟩ := w.settings.exists_get?_eq_none
    obtain ⟨v, w₁, w₂, hrun, hrun'⟩ := hstep s m' hm'
    obtain ⟨w₃, w₄, hv, hv'⟩ := hget hm' s
    rw [hrun, hc] at hv
    rw [hrun'] at hv'
    injection hv with hv
    injection hv' with hv'
    exact hv.symm.trans hv'
  · intro hstep s m' hm'
    obtain ⟨w₁, w₂, hv, hv'⟩ := hget hm' s
    refine ⟨_, w₁, w₂, ?_, hv'⟩
    cases hmemory : σ.memory with
    | none =>
      rw [hmemory] at hv
      exact hv
    | some c =>
      rw [hmemory] at hv
      rw [← hstep c hmemory s]
      exact hv

/-- A manager that stays in step is in step now. -/
theorem StaysInStep.now {m : ManagerId} {acts : List Act} {w : World} (h : StaysInStep m acts w) :
    InStep m w := by
  cases acts with
  | nil => exact h
  | cons a acts => exact h.1

/-- By induction on the calls: each of them leaves the memory in step exactly if it keeps it so. -/
theorem Tracks.staysInStep_iff_allKeep {m : ManagerId} {w : World} (h : Tracks m home w σ)
    (hstep : σ.InStep home) {acts : List Act} (hacts : ∀ a ∈ acts, a.Proper) :
    StaysInStep m acts w ↔ Act.AllKeep home acts σ := by
  induction acts generalizing w σ with
  | nil => exact iff_of_true (h.inStep_iff.mpr hstep) trivial
  | cons a acts ih =>
    have hrest := fun b hb => hacts b (List.mem_cons_of_mem a hb)
    have hnow := h.inStep_iff.mpr hstep
    obtain ⟨σ', w', hnext, hrun, htracks⟩ | ⟨f, w', hnext, hrun⟩ :=
      h.perform (hacts a List.mem_cons_self)
    · simp only [StaysInStep, Act.AllKeep, hnow, true_and, hrun, hnext]
      constructor
      · intro hall
        have hafter := hall w' rfl
        have hstep' := htracks.inStep_iff.mp hafter.now
        refine ⟨(Act.inStep_next hstep hnext).mp hstep', ?_⟩
        rintro σ'' ⟨⟩
        exact (ih htracks hstep' hrest).mp hafter
      · rintro ⟨hkeeps, hall⟩ w'' ⟨⟩
        exact (ih htracks ((Act.inStep_next hstep hnext).mpr hkeeps) hrest).mpr (hall σ' rfl)
    · -- After a call that is refused no other is made.
      have hkeeps := Act.keeps_of_next_eq_none hnext
      simp [StaysInStep, Act.AllKeep, hnow, hkeeps, hrun, hnext]

/-- The settings file says an object with these members, or it is missing. -/
def Begins (w : World) : Option (Table RawText Json) → Prop
  | none => Missing w
  | some t => Says w t

/-- **A manager stays in step with the file through any calls exactly if each of them keeps it so**, in
whatever file it begins. -/
theorem staysInStep_iff {m : ManagerId} {w : World} {file : Option (Table RawText Json)}
    (hfile : Begins w file) (hfresh : w.settings.get? m = none) {acts : List Act}
    (hacts : ∀ a ∈ acts, a.Proper) :
    StaysInStep m acts w ↔ Act.AllKeep w.home acts ⟨file, none⟩ := by
  have hstands : Stands w file := by
    cases file with
    | none => exact hfile
    | some t => exact holds_of_text hfile
  have htracks : Tracks m w.home w ⟨file, none⟩ := ⟨⟨rfl, hstands, hfresh⟩, by simp⟩
  exact htracks.staysInStep_iff_allKeep (fun c hc => by cases hc) hacts

/-! ## A file without settings -/

/-- A world whose settings file says an object without members. -/
def bareWorld : World :=
  { (default : World) with
    home := "/h"
    files := smallFiles (Utf8.encode ((Json.ofTable {}).encode ++ "\n").toList) }

/-- The file of the sample says an object without members. -/
theorem says_bareWorld : Says bareWorld {} := by
  refine says_of_files rfl rfl ?_ fun _ hx => absurd hx List.not_mem_nil
  exact Json.faithful_ofTable_iff.mpr ⟨List.nodup_nil, fun _ hm => absurd hm List.not_mem_nil⟩

/-- A setting is given, asked for and taken out, and what is left is saved. -/
def bareActs : List Act :=
  [.set "prompt" (.str "> "), .get "prompt" .null, .unset "prompt", .save none]

/-- Through the calls of the sample the manager stays in step. -/
theorem staysInStep_bare :
    (Begins bareWorld (some {}) ∧ bareWorld.settings.get? 0 = none ∧ ∀ a ∈ bareActs, a.Proper) ∧
      StaysInStep 0 bareActs bareWorld := by
  have hproper : ∀ a ∈ bareActs, a.Proper := by
    simp only [bareActs, List.forall_mem_cons, Act.Proper, List.not_mem_nil]
    exact ⟨Json.reads_ofString "> ", trivial, trivial, by simp, by simp⟩
  have hbegins : Begins bareWorld (some {}) := says_bareWorld
  refine ⟨⟨hbegins, rfl, hproper⟩, (staysInStep_iff hbegins rfl hproper).mpr ?_⟩
  refine ⟨Act.keeps_set rfl "prompt" (by simp), fun σ₁ _ => ⟨trivial, fun σ₂ _ => ⟨trivial, ?_⟩⟩⟩
  -- Nothing is left in memory that could be saved.
  intro σ₃ hunset
  cases hunset
  exact ⟨fun c hc => absurd hc (by simp), fun _ _ => trivial⟩

/-- **The defaults are written behind the back of the memory**: the manager still gives the value that was
set, and a new one finds the default. -/
theorem drifts_from_defaults :
    Says bareWorld {} ∧ bareWorld.settings.get? 0 = none ∧
      ∃ w₁ p w₂, (Manager.set 0 "prompt" (.str "> ")).run bareWorld = .ok () w₁ ∧
        writeDefaults.run w₁ = .ok p w₂ ∧ (∃ w₃, (get 0 .prompt).run w₂ = .ok (.text "> ") w₃) ∧
        ∃ m' w₄, w₂.settings.get? m' = none ∧ (get m' .prompt).run w₂ = .ok (.text "$ ") w₄ := by
  have hstanding : Standing 0 "/h" bareWorld (some {}) none := ⟨rfl, holds_of_text says_bareWorld, rfl⟩
  obtain ⟨w₁, hset, hstanding₁⟩ :=
    hstanding.run_set (s := .prompt) (c := { Settings.empty with prompt := some "> " })
      (Json.reads_ofString "> ") rfl
  obtain ⟨p, w₂, hdefaults, hstanding₂⟩ := hstanding₁.run_writeDefaults
  obtain ⟨w₃, hget, -⟩ := hstanding₂.run_get .prompt
  obtain ⟨m', hfresh⟩ := w₂.settings.exists_get?_eq_none
  obtain ⟨w₄, hget', -⟩ := (Standing.of_stands hstanding₂.stands m').run_get .prompt
  rw [hfresh, hstanding₂.home_eq] at hget'
  exact ⟨says_bareWorld, rfl, w₁, p, w₂, hset, hdefaults, ⟨w₃, hget⟩, m', w₄, hfresh, hget'⟩

end Manager

end CommandShell
