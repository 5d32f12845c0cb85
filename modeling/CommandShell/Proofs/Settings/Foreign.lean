import CommandShell.Proofs.Json.Joining
import CommandShell.Proofs.Settings.Drift

/-! # Members that are no settings

The settings file may hold members that are no settings (`Settings.foreign`). Every call of a manager that
writes the file writes what it read, with members put or removed under the keys of settings only. So the
others keep their values and their order through any calls of any managers, whether the file is accepted
or not and whether a call returns or not (`Manager.foreign_survives`).

A text in memory may hold the two halves of a character apart. It is written like the joined text, so what
the file holds after a call is always something that reads back (`SettingsFile.Holds.run_writeRaw`). -/

namespace CommandShell

/-! ## Members and their texts -/

namespace Json

/-- The members of an object with the texts of their values. -/
def written (ms : List (RawText × Json)) : List (RawText × String) :=
  ms.map fun m => (m.1, m.2.encodeAt 1)

/-- Objects are written alike if their members are. -/
theorem encode_congr {t u : Table RawText Json} (h : written t.toList = written u.toList) :
    (ofTable t).encode = (ofTable u).encode := by
  have hmembers : encodeMembers 1 t.toList = encodeMembers 1 u.toList := by
    have hwritten (ms : List (RawText × Json)) :
        encodeMembers 1 ms = (written ms).map fun m => encodeString m.1 ++ ": " ++ m.2 := by
      rw [encodeMembers_eq_map, written, List.map_map]
      rfl
    rw [hwritten, hwritten, h]
  rw [ofTable, ofTable, encode, encode]
  -- An empty object has a text of its own.
  cases ht : t.toList with
  | nil =>
    cases hu : u.toList with
    | nil => rfl
    | cons n ns =>
      rw [ht, hu] at h
      cases h
  | cons m ms =>
    cases hu : u.toList with
    | nil =>
      rw [ht, hu] at h
      cases h
    | cons n ns =>
      rw [ht, hu] at hmembers
      rw [encodeAt, encodeAt, hmembers]
      · exact List.cons_ne_nil n ns
      · exact List.cons_ne_nil m ms

/-- Storing a member stores its text. -/
theorem written_store (k : RawText) (j : Json) (ms : List (RawText × Json)) :
    written (Table.store k j ms) = Table.store k (j.encodeAt 1) (written ms) := by
  induction ms with
  | nil => rfl
  | cons m ms ih =>
    obtain ⟨k', j'⟩ := m
    rw [Table.store]
    by_cases hk : k' = k
    · rw [if_pos hk]
      simp [written, Table.store, hk]
    · rw [if_neg hk]
      simpa [written, Table.store, hk] using ih

end Json

/-! ## Joined settings -/

/-- A value with its text joined. -/
def Setting.Value.joined : Setting.Value → Setting.Value
  | .text s => .text s.join
  | .flag b => .flag b

/-- A value is written as its joined form is. -/
theorem Setting.Value.encodeAt_joined (v : Setting.Value) (level : Nat) :
    v.joined.toJson.encodeAt level = v.toJson.encodeAt level := by
  cases v with
  | flag b => rfl
  | text s =>
    rw [joined, toJson, toJson, Json.encodeAt, Json.encodeAt, Json.encodeString_join]

namespace Settings

/-- Settings with their texts joined. -/
def joined (c : Settings) : Settings where
  commandsDir := c.commandsDir.map RawText.join
  probeCommand := c.probeCommand.map RawText.join
  historyFile := c.historyFile.map RawText.join
  incognito := c.incognito
  prompt := c.prompt.map RawText.join
  simple := c.simple
  logLevel := c.logLevel.map RawText.join

/-- Joined settings have the joined values. -/
theorem get?_joined (c : Settings) (s : Setting) : c.joined.get? s = (c.get? s).map .joined := by
  cases s <;> simp only [get?, joined, Option.map_map] <;> rfl

/-- Joined settings can be written down. -/
theorem writable_joined (c : Settings) : c.joined.Writable := by
  intro s x hx
  rw [get?_joined] at hx
  cases hv : c.get? s with
  | none =>
    rw [hv] at hx
    exact nomatch hx
  | some v =>
    rw [hv] at hx
    cases v with
    | flag b => exact nomatch hx
    | text y =>
      cases hx
      exact y.joined_join

/-- Settings are written as their joined forms are. -/
theorem written_givenMembers_joined (c : Settings) :
    Json.written c.joined.givenMembers = Json.written c.givenMembers := by
  rw [Json.written, Json.written, givenMembers, givenMembers, List.map_filterMap, List.map_filterMap]
  refine congrArg (List.filterMap · Setting.all) (funext fun s => ?_)
  rw [get?_joined]
  cases c.get? s with
  | none => rfl
  | some v =>
    show some (_, v.joined.toJson.encodeAt 1) = some (_, v.toJson.encodeAt 1)
    rw [v.encodeAt_joined]

/-- A merged object is written by storing the texts of the settings one after the other. -/
theorem written_merge (c : Settings) (t : Table RawText Json) :
    Json.written (c.merge t).toList
      = (Json.written c.givenMembers).foldl (fun ms m => Table.store m.1 m.2 ms)
          (Json.written t.toList) := by
  rw [merge]
  induction c.givenMembers generalizing t with
  | nil => rfl
  | cons m ms ih =>
    obtain ⟨k, j⟩ := m
    show Json.written (ms.foldl _ (t.put k j)).toList = _
    rw [ih]
    have hput : Json.written (t.put k j).toList = Table.store k (j.encodeAt 1) (Json.written t.toList) :=
      Json.written_store k j t.toList
    rw [hput]
    rfl

/-- **Settings are merged alike**, as far as it shows in the text, whether their texts are joined or not. -/
theorem encode_merge_joined (c : Settings) (t : Table RawText Json) :
    (Json.ofTable (c.joined.merge t)).encode = (Json.ofTable (c.merge t)).encode := by
  apply Json.encode_congr
  rw [written_merge, written_merge, written_givenMembers_joined]

/-! ## Foreign members -/

/-- Whether a key is that of a setting. -/
def isKey (k : RawText) : Bool := Setting.all.any fun s => k == RawText.ofString s.key

/-- The key of a setting is told to be one. -/
@[simp] theorem isKey_key (s : Setting) : isKey (RawText.ofString s.key) = true :=
  List.any_eq_true.mpr ⟨s, s.mem_all, beq_self_eq_true _⟩

/-- The members that are no settings, in their order. -/
def foreign (t : Table RawText Json) : List (RawText × Json) := t.toList.filter fun m => !isKey m.1

/-- Under the key of a setting a value is put among the members that are settings. -/
theorem foreign_put (t : Table RawText Json) (s : Setting) (j : Json) :
    foreign (t.put (RawText.ofString s.key) j) = foreign t := by
  rw [foreign, foreign, Table.put]
  induction t.toList with
  | nil => simp [Table.store]
  | cons m ms ih =>
    obtain ⟨k, j'⟩ := m
    rw [Table.store]
    by_cases hk : k = RawText.ofString s.key
    · rw [if_pos hk, hk]
      simp
    · rw [if_neg hk, List.filter_cons, List.filter_cons, ih]

/-- Removing a setting leaves the foreign members. -/
theorem foreign_remove (t : Table RawText Json) (s : Setting) :
    foreign (t.remove (RawText.ofString s.key)) = foreign t := by
  rw [foreign, foreign, Table.remove, Table.filter, List.filter_filter]
  refine List.filter_congr fun m _ => ?_
  by_cases hk : m.1 = RawText.ofString s.key
  · simp [hk]
  · simp [hk]

/-- Merging settings leaves the foreign members. -/
theorem foreign_merge (c : Settings) (t : Table RawText Json) : foreign (c.merge t) = foreign t := by
  have hgo (settings : List Setting) (t : Table RawText Json) :
      foreign ((settings.filterMap fun s => (c.get? s).map fun v => (RawText.ofString s.key, v.toJson)).foldl
        (fun t m => t.put m.1 m.2) t) = foreign t := by
    induction settings generalizing t with
    | nil => rfl
    | cons s settings ih =>
      cases hs : c.get? s with
      | none => rw [List.filterMap_cons_none (by rw [hs]; rfl), ih]
      | some v =>
        rw [List.filterMap_cons_some (by rw [hs]; rfl), List.foldl_cons, ih]
        exact foreign_put t s v.toJson
  exact hgo Setting.all t

end Settings

/-! ## What calls leave in the file -/

namespace SettingsFile

variable {w : World} {t : Table RawText Json}

/-- What is written depends on the text of the object alone. -/
theorem writeRaw_congr {i j : Json} (h : i.encode = j.encode) : writeRaw i = writeRaw j := by
  rw [writeRaw, writeRaw, h]

/-- **Settings that are merged into a file are found there joined**, whatever they are. -/
theorem Holds.run_writeRaw (h : Holds w t) (c : Settings) :
    ∃ p w', (writeRaw (Json.ofTable (c.merge t))).run w = .ok p w' ∧ Holds w' (c.joined.merge t) := by
  obtain ⟨p, w', hwrite, -, hholds⟩ :=
    h.takes _ (Settings.faithful_merge h.faithful c.writable_joined)
  rw [writeRaw_congr (c.encode_merge_joined t)] at hwrite
  exact ⟨p, w', hwrite, hholds⟩

end SettingsFile

namespace Manager

open SettingsFile

variable {m : ManagerId} {w : World} {t : Table RawText Json}

/-- The settings file holds an object with these foreign members. -/
def HoldsForeign (w : World) (members : List (RawText × Json)) : Prop :=
  ∃ t, Holds w t ∧ Settings.foreign t = members

/-- What asking for the settings leaves in a file that is there. -/
theorem holds_of_standing {home : String} {memory memory' : Option Settings}
    (h : Standing m home w (if memory.isSome then some t else some (created home (some t))) memory') :
    Holds w t := by
  have hstands : Stands w (some t) := by
    have hfile : (if memory.isSome then some t else some (created home (some t))) = some t := ite_self _
    rw [← hfile]
    exact h.stands
  exact hstands

/-- Writing the given settings leaves the foreign members. -/
theorem holdsForeign_writeGiven (m : ManagerId) (h : Holds w t) :
    ∃ p w', (writeGiven m).run w = .ok p w' ∧ HoldsForeign w' (Settings.foreign t) := by
  have hstanding : Standing m w.home w (some t) (w.settings.get? m) := ⟨rfl, h, rfl⟩
  obtain ⟨w₁, hconfig, hstanding₁⟩ := hstanding.run_config
  obtain ⟨p, w', hwrite, hwritten⟩ := (holds_of_standing hstanding₁).run_writeRaw _
  refine ⟨p, w', ?_, _, hwritten, Settings.foreign_merge _ t⟩
  exact (Shell.run_bind_ok h.run_readRaw _).trans ((Shell.run_bind_ok hconfig _).trans hwrite)

/-- So does saving. -/
theorem holdsForeign_save (m : ManagerId) (given : Option Settings) (h : Holds w t) :
    ∃ p w', (save m given).run w = .ok p w' ∧ HoldsForeign w' (Settings.foreign t) := by
  cases given with
  | none => exact holdsForeign_writeGiven m h
  | some c =>
    have hkept : Holds { w with settings := w.settings.put m c } t := h.of_same ⟨rfl, rfl, rfl⟩
    obtain ⟨p, w', hwrite, hforeign⟩ := holdsForeign_writeGiven m hkept
    have hmodify : (modify fun w => { w with settings := w.settings.put m c } : Shell PUnit).run w
        = .ok ⟨⟩ { w with settings := w.settings.put m c } := rfl
    exact ⟨p, w', (Shell.run_bind_ok hmodify _).trans hwrite, hforeign⟩

/-- So does setting a value, also one that is refused. -/
theorem holdsForeign_set (m : ManagerId) (key : String) (value : Json) (h : Holds w t) :
    HoldsForeign (w.after (Manager.set m key value)) (Settings.foreign t) := by
  cases hkey : Setting.ofKey? key with
  | none =>
    have hrun : (Manager.set m key value).run w = .error (.unknownSetting key) w :=
      Shell.run_bind_error (run_setting_unknown hkey w) _
    rw [World.after_of_error hrun]
    exact ⟨t, h, rfl⟩
  | some s =>
    obtain rfl := Setting.ofKey?_eq_some hkey
    obtain ⟨es, hload⟩ := h.run_loaded true
    have hloaded : Holds (w.emitted es) t := h.of_same ⟨rfl, rfl, rfl⟩
    unfold Manager.set
    rw [World.after_bind_ok (run_setting s w), World.after_bind_ok hload]
    cases hc : Settings.ofMembers ((loaded (some t)).members.put s.key value) with
    | error r =>
      rw [World.after_of_error (Shell.run_bind_error (Shell.run_ofExcept_error _ r _) _)]
      exact ⟨t, hloaded, rfl⟩
    | ok c =>
      obtain ⟨p, w', hsave, hforeign⟩ := holdsForeign_save m (some c) hloaded
      have hdone : (save m (some c) >>= fun _ => pure ()).run (w.emitted es) = .ok () w' :=
        Shell.run_bind_ok hsave _
      rw [World.after_bind_ok (Shell.run_ofExcept_ok _ c _), World.after_of_ok hdone]
      exact hforeign

/-- So does taking a setting out. -/
theorem holdsForeign_unset (m : ManagerId) (key : String) (h : Holds w t) :
    HoldsForeign (w.after (Manager.unset m key)) (Settings.foreign t) := by
  cases hkey : Setting.ofKey? key with
  | none =>
    have hrun : (Manager.unset m key).run w = .error (.unknownSetting key) w :=
      Shell.run_bind_error (run_setting_unknown hkey w) _
    rw [World.after_of_error hrun]
    exact ⟨t, h, rfl⟩
  | some s =>
    obtain rfl := Setting.ofKey?_eq_some hkey
    have hstanding : Standing m w.home w (some t) (w.settings.get? m) := ⟨rfl, h, rfl⟩
    obtain ⟨w', hrun, hstanding'⟩ := hstanding.run_unset s
    rw [World.after_of_ok hrun]
    exact ⟨_, hstanding'.stands, Settings.foreign_remove t s⟩

/-- **A call leaves the foreign members**, unless it writes the defaults. -/
theorem Act.holdsForeign_after {a : Act} (ha : a ≠ .writeDefaults) (m : ManagerId) (h : Holds w t) :
    HoldsForeign (w.after (a.perform m)) (Settings.foreign t) := by
  have hstanding : Standing m w.home w (some t) (w.settings.get? m) := ⟨rfl, h, rfl⟩
  cases a with
  | get key otherwise =>
    obtain ⟨j, w', hrun, hstanding'⟩ := hstanding.run_getKey key otherwise
    have hperform : ((get key otherwise).perform m).run w = .ok () w' := Shell.run_bind_ok hrun _
    rw [World.after_of_ok hperform]
    exact ⟨t, holds_of_standing hstanding', rfl⟩
  | load create =>
    obtain ⟨es, hrun⟩ := h.run_loaded create
    have hperform : ((load create).perform m).run w = .ok () (w.emitted es) := Shell.run_bind_ok hrun _
    rw [World.after_of_ok hperform]
    exact ⟨t, h.of_same ⟨rfl, rfl, rfl⟩, rfl⟩
  | set key value => exact holdsForeign_set m key value h
  | unset key => exact holdsForeign_unset m key h
  | save given =>
    obtain ⟨p, w', hrun, hforeign⟩ := holdsForeign_save m given h
    have hperform : ((save given).perform m).run w = .ok () w' := Shell.run_bind_ok hrun _
    rw [World.after_of_ok hperform]
    exact hforeign
  | writeDefaults => exact absurd rfl ha

/-! ## What any calls leave in the file -/

/-- The world after calls of managers. A call that ends with a fault is followed by the next one. -/
def afterCalls (w : World) (calls : List (ManagerId × Act)) : World :=
  calls.foldl (fun w call => w.after (call.2.perform call.1)) w

/-- Calls other than writing the defaults keep the foreign members, in their order. -/
theorem holdsForeign_afterCalls {calls : List (ManagerId × Act)}
    (hcalls : ∀ call ∈ calls, call.2 ≠ .writeDefaults) (h : Holds w t) :
    HoldsForeign (afterCalls w calls) (Settings.foreign t) := by
  induction calls generalizing w t with
  | nil => exact ⟨t, h, rfl⟩
  | cons call calls ih =>
    obtain ⟨hcall, hrest⟩ := List.forall_mem_cons.mp hcalls
    obtain ⟨u, hu, hforeign⟩ := Act.holdsForeign_after hcall call.1 h
    rw [← hforeign]
    exact ih hrest hu

/-- **Foreign members survive.** A settings file that says an object, accepted or not, says one after any
calls of any managers, and whatever they have in memory. The members that are no settings are the same
in both, in the same order. -/
theorem foreign_survives (h : Says w t) {calls : List (ManagerId × Act)}
    (hcalls : ∀ call ∈ calls, call.2 ≠ .writeDefaults) :
    ∃ t', Says (afterCalls w calls) t' ∧ Settings.foreign t' = Settings.foreign t := by
  obtain ⟨t', hholds, hforeign⟩ := holdsForeign_afterCalls hcalls (holds_of_text h)
  obtain ⟨name, r, hname, hread, hparse⟩ := hholds.reads
  exact ⟨t', ⟨name, r, hname, hread, hparse, Json.doubleReadsBack_of_faithful hholds.faithful⟩, hforeign⟩

/-! ## A file with foreign members -/

/-- A file with a comment in front of a setting that is not accepted, and another member behind it. -/
def annotated : Table RawText Json :=
  ⟨[("_comment", .str "mine"), ("simple", .str "perhaps"), ("theme", .bool true)]⟩

/-- A world with this file. -/
def annotatedWorld : World :=
  { (default : World) with
    home := "/h"
    files := smallFiles (Utf8.encode ((Json.ofTable annotated).encode ++ "\n").toList) }

/-- The file of the sample says the annotated object. -/
theorem says_annotatedWorld : Says annotatedWorld annotated := by
  refine says_of_files rfl rfl ?_ ?_
  · refine Json.faithful_ofTable_iff.mpr ⟨by decide, ?_⟩
    simp only [annotated, List.forall_mem_cons, List.not_mem_nil]
    refine ⟨⟨RawText.joined_ofString _, RawText.joined_ofString _⟩,
      ⟨RawText.joined_ofString _, RawText.joined_ofString _⟩, ⟨RawText.joined_ofString _, trivial⟩, ?_⟩
    simp
  · intro x hx
    simp [annotated, Json.ofTable, Json.doubles, Json.doublesOfMembers] at hx

/-- Two managers give a setting, take one out, save, ask and load, and one call names no setting. -/
def annotatedCalls : List (ManagerId × Act) :=
  [(0, .set "prompt" (.str "> ")), (1, .unset "simple"), (0, .save none), (1, .set "theme" .null),
    (1, .get "prompt" .null), (0, .load true)]

/-- The comment and the other foreign member survive the calls of the sample. -/
theorem foreign_survives_annotated :
    (Says annotatedWorld annotated ∧ ∀ call ∈ annotatedCalls, call.2 ≠ .writeDefaults) ∧
      ∃ t', Says (afterCalls annotatedWorld annotatedCalls) t' ∧
        Settings.foreign t' = [(RawText.ofString "_comment", Json.str "mine"),
          (RawText.ofString "theme", Json.bool true)] := by
  have hcalls : ∀ call ∈ annotatedCalls, call.2 ≠ .writeDefaults := by
    simp [annotatedCalls]
  exact ⟨⟨says_annotatedWorld, hcalls⟩, foreign_survives says_annotatedWorld hcalls⟩

end Manager

end CommandShell
