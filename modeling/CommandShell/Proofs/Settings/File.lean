import CommandShell.Proofs.Files.Actions
import CommandShell.Proofs.Settings.Check
import CommandShell.Proofs.Settings.FileText

/-! # The settings file

A file that holds an object is read as that object, and loading it changes nothing (`Holds`). Whatever
faithful object is written into a file that can be written, the file holds it afterwards (`Takes`). A
file that holds something takes anything, and so does a missing one that can be made. -/

namespace CommandShell

namespace Json

variable {t : Table RawText Json}

/-- An object is faithful if its keys are different and joined and its values are faithful, one level
deeper. -/
theorem faithful_ofTable_iff :
    (ofTable t).Faithful maxDepth ↔
      t.keys.Nodup ∧ ∀ m ∈ t.toList, m.1.Joined ∧ m.2.Faithful (maxDepth - 1) := Iff.rfl

/-- An object stays faithful when a faithful value is put under a joined key. -/
theorem faithful_put (h : (ofTable t).Faithful maxDepth) {k : RawText} {j : Json} (hk : k.Joined)
    (hj : j.Faithful (maxDepth - 1)) : (ofTable (t.put k j)).Faithful maxDepth := by
  obtain ⟨hkeys, hms⟩ := faithful_ofTable_iff.mp h
  refine faithful_ofTable_iff.mpr ⟨Table.nodup_keys_put hkeys k j, ?_⟩
  intro m hm
  rcases Table.mem_put hm with rfl | hm
  · exact ⟨hk, hj⟩
  · exact hms m hm

/-- An object stays faithful when a key is removed. -/
theorem faithful_remove (h : (ofTable t).Faithful maxDepth) (k : RawText) :
    (ofTable (t.remove k)).Faithful maxDepth := by
  obtain ⟨hkeys, hms⟩ := faithful_ofTable_iff.mp h
  exact faithful_ofTable_iff.mpr ⟨Table.nodup_keys_remove hkeys k,
    fun m hm => hms m (Table.mem_of_mem_remove hm)⟩

/-- JSON reads back the texts that have no surrogates. -/
theorem reads_ofString (s : String) (x : RawText) (h : Json.str (RawText.ofString s) = .str x) :
    Json.decode (Json.str x).encode = .ok (.str x) := by
  cases h
  have hfaithful : (Json.str (RawText.ofString s)).Faithful maxDepth := RawText.joined_ofString s
  have hdecode := decodeChars_encode hfaithful stops_nil (by simp)
  rwa [List.append_nil] at hdecode

end Json

namespace Settings

/-- The texts among the settings can be written down. -/
def Writable (c : Settings) : Prop := ∀ s x, c.get? s = some (.text x) → x.Joined

/-- The settings that a faithful object gives can be written down again. -/
theorem writable_of_ofMembers {t : Table RawText Json} {c : Settings}
    (ht : (Json.ofTable t).Faithful Json.maxDepth) (hc : ofMembers t = .ok c) : c.Writable := by
  intro s x hx
  have hcheck := ofMembers_eq_ok_iff.mp hc s
  rw [hx] at hcheck
  have hmem := Table.mem_of_get? (Setting.eq_str_of_check hcheck)
  exact ((Json.faithful_ofTable_iff.mp ht).2 _ hmem).2

/-- So can settings to which a value was given, if it is a text that JSON reads back. -/
theorem writable_of_members_put {c c' : Settings} (h : c.Writable) {s : Setting} {j : Json}
    (hreads : ∀ x, j = .str x → Json.decode (Json.str x).encode = .ok (.str x))
    (hc' : ofMembers (c.members.put s.key j) = .ok c') : c'.Writable := by
  obtain ⟨r, hr⟩ | ⟨v, d, hv, hd, hget⟩ := ofMembers_members_put c s j
  · rw [hc'] at hr
    cases hr
  · rw [hc'] at hd
    cases hd
    intro s' x hx
    rw [hget s'] at hx
    split at hx
    · subst hx
      cases Setting.eq_str_of_check hv
      exact Json.faithful_of_decodeChars (hreads x rfl) fun y hy => absurd hy List.not_mem_nil
    · exact h s' x hx

/-- Settings that can be written down can be merged into a faithful object. -/
theorem faithful_merge {c : Settings} {t : Table RawText Json}
    (h : (Json.ofTable t).Faithful Json.maxDepth) (hc : c.Writable) :
    (Json.ofTable (c.merge t)).Faithful Json.maxDepth := by
  -- The given members are put one after the other.
  have hgo : ∀ (l : List (RawText × Json)) (t : Table RawText Json),
      (∀ m ∈ l, m.1.Joined ∧ m.2.Faithful (Json.maxDepth - 1)) →
        (Json.ofTable t).Faithful Json.maxDepth →
          (Json.ofTable (l.foldl (fun t m => t.put m.1 m.2) t)).Faithful Json.maxDepth := by
    intro l
    induction l with
    | nil => exact fun _ _ h => h
    | cons m l ih =>
      intro t hl ht
      obtain ⟨hk, hj⟩ := hl m List.mem_cons_self
      exact ih _ (fun n hn => hl n (List.mem_cons_of_mem _ hn)) (Json.faithful_put ht hk hj)
  refine hgo _ t (fun m hm => ?_) h
  obtain ⟨s, _, hs⟩ := List.mem_filterMap.mp hm
  cases hget : c.get? s with
  | none =>
    rw [hget] at hs
    cases hs
  | some v =>
    rw [hget] at hs
    cases hs
    refine ⟨RawText.joined_ofString s.key, ?_⟩
    cases v with
    | flag b => trivial
    | text x => exact hc s x hget

end Settings

namespace SettingsFile

/-- The directory of the settings file under a home directory. -/
def directoryOf (home : String) : Path := (Path.ofString home).child ".cmdsh"

/-- The settings file under a home directory. -/
def pathOf (home : String) : Path := (directoryOf home).child "config.json"

variable {w : World} {t : Table RawText Json}

/-- The directory of the settings is found from the home directory alone. -/
theorem run_directory (w : World) : directory.run w = .ok (directoryOf w.home) w := rfl

/-- So is the settings file. -/
theorem run_path (w : World) : path.run w = .ok (pathOf w.home) w := rfl

/-- The directory of the settings is one name below the home directory. -/
theorem directoryOf_eq (home : String) :
    directoryOf home
      = ⟨(Path.ofString home).root, (Path.ofString home).parts ++ [RawText.ofString ".cmdsh"]⟩ := rfl

/-- The settings file is one name below this directory. -/
theorem pathOf_eq (home : String) :
    pathOf home
      = ⟨(directoryOf home).root, (directoryOf home).parts ++ [RawText.ofString "config.json"]⟩ := rfl

/-- The name of the settings file stands behind that of its directory. -/
theorem text_pathOf (home : String) :
    (pathOf home).text = (directoryOf home).text ++ "/" ++ "config.json" := by
  have hparts : (directoryOf home).parts ≠ [] := by
    rw [directoryOf_eq]
    simp
  rw [pathOf_eq, Path.text_concat hparts]

/-- The path of the directory is not empty. -/
theorem toString_directoryOf_ne (home : String) : (directoryOf home).text.toString ≠ "" := by
  obtain ⟨start, hstart⟩ := Path.exists_text_concat (Path.ofString home).root
    (Path.ofString home).parts ".cmdsh"
  rw [directoryOf_eq, hstart, RawText.toString_append, RawText.toString_ofString]
  intro h
  -- The name of the directory ends with its last component, which is not empty.
  have hlist := congrArg String.toList h
  rw [String.toList_append] at hlist
  exact absurd (List.append_eq_nil_iff.mp hlist).2 (by decide)

/-! ## A file that reads -/

/-- The settings file is there, and these are its bytes. -/
def Reads (w : World) (data : List UInt8) : Prop :=
  ∃ name r, Files.fileName (pathOf w.home).text = .ok name ∧ w.files.read w.cwd name = .ok r ∧
    Files.contentBytes r.2 = data

namespace Reads

variable {data : List UInt8} {j : Json}

/-- A settings file that reads is told to be there. -/
theorem run_isThere (h : Reads w data) : (Files.isThere (pathOf w.home)).run w = .ok true w := by
  obtain ⟨name, r, hname, hread, -⟩ := h
  exact Files.run_isThere_of_read hname hread

/-- It gives its bytes. -/
theorem run_bytes (h : Reads w data) :
    (tryCatch (some <$> Files.readBytes (pathOf w.home)) noneIfMissing).run w
      = .ok (some data) w := by
  obtain ⟨name, r, hname, hread, rfl⟩ := h
  refine Shell.run_catch_ok ?_ _
  rw [map_eq_pure_bind, Shell.run_bind_ok (Files.run_readBytes hname hread)]
  rfl

/-- Bytes that say a value are read as this value. -/
theorem run_readRaw (h : Reads w data) (hparse : parse data = .ok (.ok j)) :
    readRaw.run w = .ok j w := by
  unfold readRaw
  rw [Shell.run_bind_ok (run_path w)]
  refine (Shell.run_bind_ok h.run_bytes _).trans ?_
  simp only [hparse]
  rfl

/-- Bytes that say no value are read as an empty object, after a warning. -/
theorem run_readRaw_malformed (h : Reads w data) {mistake : String}
    (hparse : parse data = .ok (.error mistake)) :
    readRaw.run w = .ok (.obj []) (w.emitted (w.reports .warning .config
      ("Ignoring malformed " ++ (pathOf w.home).toString ++ ": " ++ mistake))) := by
  unfold readRaw
  rw [Shell.run_bind_ok (run_path w)]
  refine (Shell.run_bind_ok h.run_bytes _).trans ?_
  simp only [hparse]
  exact Shell.run_bind_ok (Shell.run_log _ _ _ w) fun _ => pure (Json.obj [])

/-- Bytes that cannot be read end with a fault. -/
theorem run_readRaw_error (h : Reads w data) {f : Fault} (hparse : parse data = .error f) :
    readRaw.run w = .error f w := by
  unfold readRaw
  rw [Shell.run_bind_ok (run_path w)]
  refine (Shell.run_bind_ok h.run_bytes _).trans ?_
  simp only [hparse]
  exact Shell.run_bind_error (Shell.run_ofExcept_error id f w) _

/-- What a file that reads gives is checked. -/
theorem run_load_ok (h : Reads w data) {w' : World} (hraw : readRaw.run w = .ok j w')
    {c : Settings} (hc : Settings.ofJson j = .ok c) (create : Bool) :
    (load create).run w = .ok c w' := by
  unfold load
  rw [Shell.run_bind_ok (run_path w), Shell.run_bind_ok h.run_isThere]
  show (readRaw >>= _).run w = _
  rw [Shell.run_bind_ok hraw, hc]
  rfl

/-- What the check rejects is ignored, after a warning. -/
theorem run_load_rejected (h : Reads w data) {w' : World} (hraw : readRaw.run w = .ok j w')
    {r : Report} (hr : Settings.ofJson j = .error r) (create : Bool) :
    (load create).run w = .ok .empty (w'.emitted (w'.reports .warning .config
      ("Invalid config file (" ++ r.message ++ "), using defaults"))) := by
  unfold load
  rw [Shell.run_bind_ok (run_path w), Shell.run_bind_ok h.run_isThere]
  show (readRaw >>= _).run w = _
  rw [Shell.run_bind_ok hraw, hr]
  exact Shell.run_bind_ok (Shell.run_log _ _ _ w') fun _ => pure Settings.empty

/-- What cannot be read cannot be loaded, and the fault is the same. -/
theorem run_load_error (h : Reads w data) {f : Fault} (hraw : readRaw.run w = .error f w)
    (create : Bool) : (load create).run w = .error f w := by
  unfold load
  rw [Shell.run_bind_ok (run_path w), Shell.run_bind_ok h.run_isThere]
  show (readRaw >>= _).run w = _
  exact Shell.run_bind_error hraw _

end Reads

/-! ## A file that holds an object -/

/-- The settings file is there, and what it says is an object with these members. -/
structure Holds (w : World) (t : Table RawText Json) : Prop where
  /-- The file reads, and its bytes say the object. -/
  reads : ∃ name r, Files.fileName (pathOf w.home).text = .ok name ∧
    w.files.read w.cwd name = .ok r ∧ parse (Files.contentBytes r.2) = .ok (.ok (Json.ofTable t))
  /-- The object can be written down. -/
  faithful : (Json.ofTable t).Faithful Json.maxDepth

/-- A file that holds an object reads, and its bytes say the object. -/
theorem Holds.exists_reads (h : Holds w t) :
    ∃ data, Reads w data ∧ parse data = .ok (.ok (Json.ofTable t)) := by
  obtain ⟨name, r, hname, hread, hparse⟩ := h.reads
  exact ⟨_, ⟨name, r, hname, hread, rfl⟩, hparse⟩

/-- A file whose bytes say a faithful object holds it. -/
theorem Reads.holds {data : List UInt8} (h : Reads w data)
    (hparse : parse data = .ok (.ok (Json.ofTable t)))
    (ht : (Json.ofTable t).Faithful Json.maxDepth) : Holds w t := by
  obtain ⟨name, r, hname, hread, rfl⟩ := h
  exact ⟨⟨name, r, hname, hread, hparse⟩, ht⟩

/-- A file that holds an object is read as this object. -/
theorem Holds.run_readRaw (h : Holds w t) : readRaw.run w = .ok (Json.ofTable t) w := by
  obtain ⟨data, hreads, hparse⟩ := h.exists_reads
  exact hreads.run_readRaw hparse

/-- Loading a file that holds accepted settings gives these, and changes nothing. -/
theorem Holds.run_load (h : Holds w t) {c : Settings} (hc : Settings.ofMembers t = .ok c)
    (create : Bool) : (load create).run w = .ok c w := by
  obtain ⟨data, hreads, -⟩ := h.exists_reads
  exact hreads.run_load_ok h.run_readRaw hc create

/-! ## Writing -/

/-- The settings file can be written: whatever faithful object is written into it, it holds that
object afterwards, and nothing but files changes. -/
def Takes (w : World) : Prop :=
  ∀ t, (Json.ofTable t).Faithful Json.maxDepth → ∃ p w', (writeRaw (Json.ofTable t)).run w = .ok p w' ∧
    w.SameButFiles w' ∧ Holds w' t

/-- Where the directory of the file can be made and the file can be written, any value can be written into
it. -/
theorem run_writeRaw_of_write {w₁ : World} (hdirectory : (Files.makeDirectories
    (directoryOf w.home)).run w = .ok () w₁) {name : String}
    (hname : Files.fileName (pathOf w.home).text = .ok name) {update : Option Content → Content}
    {files : FileTree} (hwrite : w₁.files.write w₁.cwd name update = .ok files) (j : Json) :
    ∃ files', w₁.files.write w₁.cwd name (fun _ => .bytes (Utf8.encode (j.encode ++ "\n").toList))
        = .ok files' ∧ (writeRaw j).run w = .ok (pathOf w.home) { w₁ with files := files' } := by
  obtain ⟨files₁, rfl⟩ := (Files.sameButFiles_makeDirectories (directoryOf w.home)).of_ok hdirectory
  -- If something can be written there, so can the value.
  obtain ⟨files₂, hwrite₂⟩ := FileTree.write_of_write hwrite
    fun _ => .bytes (Utf8.encode (j.encode ++ "\n").toList)
  have hbytes : (Files.writeBytes (pathOf w.home) (Utf8.encode (j.encode ++ "\n").toList)).run
      { w with files := files₁ } = .ok () { w with files := files₂ } := Files.run_change_ok hname hwrite₂
  refine ⟨files₂, hwrite₂, ?_⟩
  unfold writeRaw
  rw [Shell.run_bind_ok (run_directory w), Shell.run_bind_ok hdirectory, Shell.run_bind_ok (run_path _)]
  exact Shell.run_bind_ok hbytes fun _ => pure (pathOf w.home)

/-- What was written into the file after its directory was made, the file holds. -/
theorem exists_holds_of_write {w₁ : World} (hdirectory : (Files.makeDirectories
    (directoryOf w.home)).run w = .ok () w₁) {name : String}
    (hname : Files.fileName (pathOf w.home).text = .ok name) {update : Option Content → Content}
    {files : FileTree} (hwrite : w₁.files.write w₁.cwd name update = .ok files)
    (ht : (Json.ofTable t).Faithful Json.maxDepth) :
    ∃ p w', (writeRaw (Json.ofTable t)).run w = .ok p w' ∧ w.SameButFiles w' ∧ Holds w' t := by
  obtain ⟨files₂, hwrite₂, hrun⟩ := run_writeRaw_of_write hdirectory hname hwrite (Json.ofTable t)
  obtain ⟨files₁, rfl⟩ := (Files.sameButFiles_makeDirectories (directoryOf w.home)).of_ok hdirectory
  obtain ⟨place, old, _, hread, _⟩ := FileTree.read_of_write hwrite₂
  exact ⟨_, _, hrun, ⟨files₂, rfl⟩, ⟨name, _, hname, hread, parse_encode ht⟩, ht⟩

/-- The directory of a file that reads is there. -/
theorem Reads.run_makeDirectories {data : List UInt8} (h : Reads w data) :
    (Files.makeDirectories (directoryOf w.home)).run w = .ok () w := by
  obtain ⟨name, r, hname, hread, -⟩ := h
  have hlegal : FileTree.IsName "config.json" := by
    refine ⟨by decide, by decide, by decide⟩
  exact Files.run_makeDirectories_of_read (text_pathOf w.home) hlegal (by decide) hname
    (toString_directoryOf_ne w.home) hread

/-- Any value can be written into a file that reads. -/
theorem Reads.run_writeRaw {data : List UInt8} (h : Reads w data) (j : Json) :
    ∃ w', (writeRaw j).run w = .ok (pathOf w.home) w' := by
  have hdirectory := h.run_makeDirectories
  obtain ⟨name, r, hname, hread, -⟩ := h
  obtain ⟨files, -, hrun⟩ := run_writeRaw_of_write hdirectory hname
    (FileTree.write_of_read hread fun _ => .bytes []) j
  exact ⟨_, hrun⟩

/-- A file that holds an object takes any other. -/
theorem Holds.takes (h : Holds w t) : Takes w := by
  obtain ⟨data, hreads, -⟩ := h.exists_reads
  have hdirectory := hreads.run_makeDirectories
  obtain ⟨name, r, hname, hread, -⟩ := hreads
  intro t' ht'
  exact exists_holds_of_write hdirectory hname
    (FileTree.write_of_read hread fun _ => .bytes []) ht'

/-! ## A missing file -/

/-- The settings file is missing, and can be made. -/
structure Missing (w : World) : Prop where
  /-- There is nothing to read. -/
  absent : ∃ name, Files.fileName (pathOf w.home).text = .ok name ∧
    w.files.read w.cwd name = .error .noEntry
  /-- Loading the settings, which makes the file, succeeds. -/
  made : ∃ c w', (load true).run w = .ok c w'

/-- A missing file is read as an object without members. -/
theorem Missing.run_readRaw (h : Missing w) : readRaw.run w = .ok (.obj []) w := by
  obtain ⟨name, hname, hread⟩ := h.absent
  have hbytes := Files.run_readBytes_error hname hread
  have hfails : (some <$> Files.readBytes (pathOf w.home)).run w
      = .error (.system .noEntry [(pathOf w.home).text]) w := by
    rw [map_eq_pure_bind, Shell.run_bind_error hbytes]
  unfold readRaw
  rw [Shell.run_bind_ok (run_path w)]
  have hnone : (tryCatch (some <$> Files.readBytes (pathOf w.home)) noneIfMissing).run w = .ok none w :=
    Shell.run_catch_error hfails _
  exact Shell.run_bind_ok hnone _

/-- The defaults are a faithful object. -/
theorem faithful_defaultTable (home : String) :
    (Json.ofTable (Settings.defaultTable home)).Faithful Json.maxDepth := by
  have hkeys : (Settings.defaultTable home).keys
      = RawText.ofString "_comment" :: Setting.writtenOrder.map fun s => RawText.ofString s.key := by
    rfl
  refine Json.faithful_ofTable_iff.mpr ⟨?_, fun m hm => ?_⟩
  · rw [hkeys]
    decide
  · rcases List.mem_cons.mp hm with rfl | hm
    · exact ⟨RawText.joined_ofString _, RawText.joined_ofString _⟩
    · obtain ⟨s, _, rfl⟩ := List.mem_map.mp hm
      refine ⟨RawText.joined_ofString _, ?_⟩
      cases s <;> first | exact RawText.joined_ofString _ | trivial

/-- When something was written into the file, its directory was made and the file could be written. -/
theorem exists_write_of_writeRaw {j : Json} {p : Path} {w' : World}
    (h : (writeRaw j).run w = .ok p w') :
    ∃ w₁ name files update, (Files.makeDirectories (directoryOf w.home)).run w = .ok () w₁ ∧
      Files.fileName (pathOf w.home).text = .ok name ∧
      w₁.files.write w₁.cwd name update = .ok files := by
  unfold writeRaw at h
  rw [Shell.run_bind_ok (run_directory w)] at h
  cases hmake : (Files.makeDirectories (directoryOf w.home)).run w with
  | error f w₁ =>
    rw [Shell.run_bind_error hmake] at h
    cases h
  | ok u w₁ =>
    obtain ⟨files₁, rfl⟩ := (Files.sameButFiles_makeDirectories (directoryOf w.home)).of_ok hmake
    rw [Shell.run_bind_ok hmake, Shell.run_bind_ok (run_path _)] at h
    obtain ⟨f, hf⟩ | ⟨name, files, hname, hwrite, _⟩ := Files.change_cases (pathOf w.home)
      (fun t cwd p => t.write cwd p fun _ => .bytes (Utf8.encode (j.encode ++ "\n").toList))
      { w with files := files₁ }
    · have herror : (Files.writeBytes (pathOf w.home) (Utf8.encode (j.encode ++ "\n").toList)).run
          { w with files := files₁ } = .error f { w with files := files₁ } := hf
      have hfails := (Shell.run_bind_error herror fun _ => pure (pathOf w.home)).symm.trans h
      cases hfails
    · exact ⟨_, name, files, _, rfl, hname, hwrite⟩

/-- The defaults are written as an object. -/
theorem run_writeDefaults (w : World) :
    writeDefaults.run w = (writeRaw (Json.ofTable (Settings.defaultTable w.home))).run w := by
  unfold writeDefaults
  rw [Shell.run_bind_ok (EStateM.run_get w)]
  rfl

/-- Loading a file that is not there is writing the defaults, and gives no settings. -/
theorem run_load_of_absent {name : String} (hname : Files.fileName (pathOf w.home).text = .ok name)
    (hread : w.files.read w.cwd name = .error .noEntry) :
    (load true).run w = (writeDefaults >>= fun _ => pure Settings.empty).run w := by
  unfold load
  rw [Shell.run_bind_ok (run_path w), Shell.run_bind_ok (Files.run_isThere_of_noEntry hname hread)]
  rfl

/-- A missing file that can be made takes any object. -/
theorem Missing.takes (h : Missing w) : Takes w := by
  -- Making the file once shows that its directory can be made and the file written.
  obtain ⟨name, hname, hread⟩ := h.absent
  obtain ⟨c, w', hload⟩ := h.made
  rw [run_load_of_absent hname hread] at hload
  cases hdefaults : writeDefaults.run w with
  | error f w₁ =>
    rw [Shell.run_bind_error hdefaults] at hload
    cases hload
  | ok p w₁ =>
    rw [run_writeDefaults] at hdefaults
    obtain ⟨w₂, name', files, update, hmake, hname', hwrite⟩ := exists_write_of_writeRaw hdefaults
    intro t ht
    exact exists_holds_of_write hmake hname' hwrite ht

/-- Loading a missing file makes it from the defaults, and gives no settings. -/
theorem Missing.run_load (h : Missing w) :
    ∃ w', (load true).run w = .ok .empty w' ∧ w.SameButFiles w' ∧
      Holds w' (Settings.defaultTable w.home) := by
  obtain ⟨name, hname, hread⟩ := h.absent
  obtain ⟨p, w', hwrite, hsame, hholds⟩ := h.takes _ (faithful_defaultTable w.home)
  rw [← run_writeDefaults] at hwrite
  refine ⟨w', ?_, hsame, hholds⟩
  rw [run_load_of_absent hname hread, Shell.run_bind_ok hwrite]
  rfl

end SettingsFile

end CommandShell
