import CommandShell.Proofs.Files.Directories
import CommandShell.Proofs.Loader.Within
import CommandShell.Proofs.Shell.Carries
import CommandShell.Proofs.Table

/-! # Searching for modules

Where the search directories are absolute and the tree is the same below them, the same modules are found
(`Loader.carries_index`): neither the working directory nor anything else in the world matters to the
search. -/

namespace CommandShell

/-! ## Trees that are the same below a directory -/

/-- The names that a path lists, or why there are none. Nothing is in a lost directory. -/
def FileTree.listing (t : FileTree) (cwd : WorkingDirectory) (name : String) :
    Except Errno (List String) :=
  (t.directory cwd name).map fun d => (d.location?.map t.names).getD []

/-- Two trees are the same below a directory: the paths that go on from there find and read the same,
and the directory has the same names in it. -/
structure FileTree.SameBelow (directory : Path) (t t' : FileTree) : Prop where
  /-- What stands at a path is the same. -/
  find : ∀ parts name, Files.fileName (Path.mk directory.root (directory.parts ++ parts)).text = .ok name →
    ∀ cwd, t'.find cwd name = t.find cwd name
  /-- What a file holds is the same. -/
  read : ∀ parts name, Files.fileName (Path.mk directory.root (directory.parts ++ parts)).text = .ok name →
    ∀ cwd, t'.read cwd name = t.read cwd name
  /-- The names in the directory are the same. -/
  listing : ∀ name, Files.fileName directory.text = .ok name →
    ∀ cwd, t'.listing cwd name = t.listing cwd name

/-- A tree is the same as itself below any directory. -/
theorem FileTree.SameBelow.refl (directory : Path) (t : FileTree) : t.SameBelow directory t :=
  ⟨fun _ _ _ _ => rfl, fun _ _ _ _ => rfl, fun _ _ _ => rfl⟩

/-- Being the same below a directory goes both ways. -/
theorem FileTree.SameBelow.symm {directory : Path} {t t' : FileTree} (h : t.SameBelow directory t') :
    t'.SameBelow directory t where
  find parts name hname cwd := (h.find parts name hname cwd).symm
  read parts name hname cwd := (h.read parts name hname cwd).symm
  listing name hname cwd := (h.listing name hname cwd).symm

/-- Two worlds search these directories, which are absolute and below which the trees are the same. -/
structure World.SameSearch (directories : List Path) (w w' : World) : Prop where
  /-- The one searches them. -/
  left : w.loader.directories = directories
  /-- So does the other. -/
  right : w'.loader.directories = directories
  /-- They are absolute. -/
  rooted : ∀ d ∈ directories, d.IsRooted
  /-- The trees are the same below them. -/
  below : ∀ d ∈ directories, w.files.SameBelow d w'.files

namespace Files

variable {w w' : World} {path : Path} {name : String} {names : List String} {paths : List Path}

/-- A directory that can be listed gives the paths of its entries. -/
theorem run_list (hname : fileName path.text = .ok name)
    (h : w.files.listing w.cwd name = .ok names) :
    (list path).run w = .ok (names.map fun n => ⟨path.root, path.parts ++ [RawText.ofString n]⟩) w := by
  unfold FileTree.listing at h
  cases hdirectory : w.files.directory w.cwd name with
  | error e =>
    rw [hdirectory] at h
    exact nomatch h
  | ok directory =>
    rw [hdirectory] at h
    cases h
    exact Shell.run_bind_ok (run_query_ok hname hdirectory) _

/-- Listing a directory gives the paths of its names, or says why there are none. -/
theorem run_list_eq (path : Path) (w : World) : (list path).run w = match fileName path.text with
    | .error f => .error f w
    | .ok name => match w.files.listing w.cwd name with
      | .error e => .error (.system e [path.text]) w
      | .ok names => .ok (names.map fun n => ⟨path.root, path.parts ++ [RawText.ofString n]⟩) w := by
  cases hname : fileName path.text with
  | error f =>
    unfold list query
    rw [hname]
    rfl
  | ok name =>
    cases hlisting : w.files.listing w.cwd name with
    | ok names =>
      simp only [hlisting]
      exact run_list hname hlisting
    | error e =>
      simp only [hlisting]
      unfold FileTree.listing at hlisting
      cases hdirectory : w.files.directory w.cwd name with
      | ok d =>
        rw [hdirectory] at hlisting
        exact nomatch hlisting
      | error e' =>
        rw [hdirectory] at hlisting
        cases hlisting
        exact Shell.run_bind_error (run_query_error hname hdirectory) _

end Files

namespace FileTree

variable {t : FileTree} {name : String}

/-- An absolute path finds the same from everywhere. -/
theorem find_cwd (hroot : Path.rootOf name ≠ "") (t : FileTree) (cwd cwd' : WorkingDirectory) :
    t.find cwd name = t.find cwd' name := by
  unfold find
  rw [resolve_cwd hroot t cwd cwd']

/-- An absolute path reads the same from everywhere. -/
theorem read_cwd (hroot : Path.rootOf name ≠ "") (t : FileTree) (cwd cwd' : WorkingDirectory) :
    t.read cwd name = t.read cwd' name := by
  unfold read
  rw [resolve_cwd hroot t cwd cwd']

/-- An absolute path lists the same from everywhere. -/
theorem listing_cwd (hroot : Path.rootOf name ≠ "") (t : FileTree) (cwd cwd' : WorkingDirectory) :
    t.listing cwd name = t.listing cwd' name := by
  unfold listing directory
  rw [resolve_cwd hroot t cwd cwd']

end FileTree

section

open World Shell

variable {directories : List Path} {w u : World} {d : Path}

/-- Events do not bear on the search. -/
theorem World.SameSearch.emitted (h : SameSearch directories w u) (es fs : List Event) :
    SameSearch directories (w.emitted es) (u.emitted fs) := ⟨h.left, h.right, h.rooted, h.below⟩

/-- Logging does the same in worlds that search the same. -/
theorem carries_log (level : Level) (source : LogSource) (message : String) :
    Carries (SameSearch directories) (log level source message) := by
  intro w u h
  rw [run_log, run_log]
  exact .ok (h.emitted _ _)

/-- What is found below a search directory carries over. -/
theorem carries_ask_find (hd : d ∈ directories) (parts : List RawText) (g : Node → Bool) :
    Carries (SameSearch directories)
      (Files.ask ⟨d.root, d.parts ++ parts⟩ fun t cwd p => (t.find cwd p).map g) := by
  intro w u h
  unfold Files.ask
  cases hname : Files.fileName (Path.mk d.root (d.parts ++ parts)).text with
  | error f => exact .ok h
  | ok name =>
    have hroot : Path.rootOf name ≠ "" :=
      Path.IsRooted.rootOf_name (p := ⟨d.root, d.parts ++ parts⟩) (h.rooted d hd) hname
    have hfind : u.files.find u.cwd name = w.files.find w.cwd name := by
      rw [(h.below d hd).find parts name hname, FileTree.find_cwd hroot _ u.cwd w.cwd]
    simp only
    rw [run_bind_ok (EStateM.run_get w), run_bind_ok (EStateM.run_get u), hfind]
    cases (w.files.find w.cwd name).map g with
    | ok answer => exact .ok h
    | error e =>
      simp only
      split
      · exact .ok h
      · exact .error h

/-- The initial file of a module in a search directory is found alike. -/
theorem carries_initialFileAt (hd : d ∈ directories) (name : String) :
    Carries (SameSearch directories)
      (initialFileAt ⟨d.root, d.parts ++ [RawText.ofString name]⟩) := by
  have hchild : Path.child ⟨d.root, d.parts ++ [RawText.ofString name]⟩ initialFile
      = ⟨d.root, d.parts ++ [RawText.ofString name, RawText.ofString initialFile]⟩ := by
    have hjoin (p : Path) : p.child initialFile = ⟨p.root, p.parts ++ [RawText.ofString initialFile]⟩ :=
      rfl
    rw [hjoin, List.append_assoc]
    rfl
  unfold initialFileAt
  rw [hchild]
  refine carries_bind (carries_ask_find hd _ _) fun isDirectory => ?_
  split
  · exact carries_pure _
  · split
    · exact carries_pure _
    · refine carries_bind (carries_ask_find hd _ _) fun there => ?_
      split
      · exact carries_pure _
      · exact carries_bind (carries_log _ _ _) fun _ => carries_pure _

/-- The initial files of modules in a search directory are found alike. -/
theorem carries_initialFiles (hd : d ∈ directories) (names : List String) :
    Carries (SameSearch directories)
      (initialFiles (names.map fun n => ⟨d.root, d.parts ++ [RawText.ofString n]⟩)) := by
  induction names with
  | nil => exact carries_pure _
  | cons n names ih =>
    rw [List.map_cons]
    exact carries_bind (carries_initialFileAt hd n) fun _ => carries_bind ih fun _ => carries_pure _

/-- A search directory is searched alike. -/
theorem carries_discover (hd : d ∈ directories) : Carries (SameSearch directories) (discover d) := by
  have hsearch : Carries (SameSearch directories) (Files.list d >>= initialFiles) := by
    intro w u h
    rw [EStateM.run_bind, EStateM.run_bind, Files.run_list_eq, Files.run_list_eq]
    cases hname : Files.fileName d.text with
    | error f => exact .error h
    | ok name =>
      have hlisting : u.files.listing u.cwd name = w.files.listing w.cwd name := by
        rw [(h.below d hd).listing name hname,
          FileTree.listing_cwd ((h.rooted d hd).rootOf_name hname) _ u.cwd w.cwd]
      simp only [hlisting]
      cases w.files.listing w.cwd name with
      | error e => exact .error h
      | ok names => exact carries_initialFiles hd names w u h
  have hparts : d = ⟨d.root, d.parts ++ []⟩ := by rw [List.append_nil]
  have hask := carries_ask_find hd []
  rw [← hparts] at hask
  refine carries_bind (hask _) fun there => ?_
  split
  · exact carries_pure _
  · refine carries_bind (hask _) fun isDirectory => ?_
    split
    · exact carries_bind (carries_log _ _ _) fun _ => carries_pure _
    · exact hsearch

/-- **The modules that are found** are the same in every world with the same search. -/
theorem Loader.carries_index : Carries (SameSearch directories) Loader.index := by
  intro w u h
  unfold Loader.index
  rw [run_bind_ok (EStateM.run_get w), run_bind_ok (EStateM.run_get u), h.left, h.right]
  have hfiles := carries_mapM (S := SameSearch directories) fun d (hd : d ∈ directories) =>
    carries_discover hd
  exact carries_bind hfiles (fun _ => carries_pure _) w u h

end

/-- The modules of the index have different names. -/
theorem Loader.nodup_index {w w' : World} {t : Table String Path} (h : Loader.index.run w = .ok t w') :
    t.keys.Nodup := by
  have hfold (files : List Path) (t : Table String Path) (ht : t.keys.Nodup) :
      (files.foldl (fun t f => t.putNew (normalName f.parent.name) f) t).keys.Nodup := by
    induction files generalizing t with
    | nil => exact ht
    | cons f files ih =>
      apply ih
      simp only [Table.putNew]
      split
      · exact ht
      · exact Table.nodup_keys_put ht _ _
  unfold Loader.index at h
  obtain ⟨w₀, w₁, hget, h⟩ := Shell.run_bind_eq_ok_iff.mp h
  obtain ⟨files, w₂, -, h⟩ := Shell.run_bind_eq_ok_iff.mp h
  cases h
  exact hfold _ _ List.nodup_nil

/-! ## Importing what was found -/

/-- An absolute path is absolute already. -/
theorem run_absolutePath_of_isRooted {path : Path} (h : path.IsRooted) (w : World) :
    (absolutePath path).run w = .ok path w := by
  have habsolute : path.isAbsolute = true := by
    refine bne_iff_ne.mpr fun hroot => ?_
    rw [Path.IsRooted, hroot] at h
    exact h rfl
  unfold absolutePath
  rw [Shell.run_bind_ok (EStateM.run_get w)]
  cases w.cwd.location? with
  | none => rfl
  | some place =>
    simp only [Path.join, habsolute, if_true]
    rfl

/-- Executing a file that reads as a module runs the module. -/
theorem run_executeFile_of_read {file : Path} {name : String} {place : Location} {m : Module} {w : World}
    (hrooted : file.IsRooted) (hname : Files.fileName file.text = .ok name)
    (hread : w.files.read w.cwd name = .ok (place, .code m)) :
    (executeFile file).run w = (m.run (place.dropLast.getLast?.getD "")).run w := by
  have hlocate : (Files.locateContent file).run w = .ok (place, .code m) w :=
    Files.run_query_ok hname hread
  exact (Shell.run_bind_ok (run_absolutePath_of_isRooted hrooted w) _).trans
    (Shell.run_bind_ok hlocate _)

/-- Importing a file that reads as a module runs the module. -/
theorem run_importFile_of_read {file : Path} {name : String} {place : Location} {m : Module} {w : World}
    (hrooted : file.IsRooted) (hname : Files.fileName file.text = .ok name)
    (hread : w.files.read w.cwd name = .ok (place, .code m)) :
    (importFile file).run w = (Shell.recover Fault.isOrdinary
      (m.run (place.dropLast.getLast?.getD "") >>= fun _ => pure none)
      fun f => pure (some (importMessage f))).run w := by
  refine Shell.run_recover_congr ?_ _ _
  rw [EStateM.run_bind, EStateM.run_bind, run_executeFile_of_read hrooted hname hread]

/-- A redirection is left as well when the action ends with a fault. -/
theorem Shell.run_redirected_error {α : Type} (i target : RegistryId) {a : Shell α} {w w' : World}
    {f : Fault} (h : a.run { w with registries := (w.registries.enter i target).2 } = .error f w') :
    (redirected i target a).run w = .error f
      { w' with registries := w'.registries.leave (w.registries.enter i target).1 } := by
  have hcaught := run_catch_error h fun f => do
    modify fun w' => { w' with registries := w'.registries.leave (w.registries.enter i target).1 }
    throw f
  exact run_bind_error hcaught fun x => do
    modify fun w' => { w' with registries := w'.registries.leave (w.registries.enter i target).1 }
    pure x

/-- An action under a redirection runs in the redirected world, and afterwards the redirection is put
back. -/
theorem Shell.run_redirected_ok {α : Type} (i target : RegistryId) {a : Shell α} {w w' : World}
    {x : α} (h : a.run { w with registries := (w.registries.enter i target).2 } = .ok x w') :
    (redirected i target a).run w = .ok x
      { w' with registries := w'.registries.leave (w.registries.enter i target).1 } := by
  have hcaught := run_catch_ok h fun f => do
    modify fun w' => { w' with registries := w'.registries.leave (w.registries.enter i target).1 }
    throw f
  exact run_bind_ok hcaught fun x => do
    modify fun w' => { w' with registries := w'.registries.leave (w.registries.enter i target).1 }
    pure x

/-- The world behind a redirection: the redirection was left. -/
theorem World.after_redirected {α : Type} (i target : RegistryId) (a : Shell α) (w : World) :
    let w' := { w with registries := (w.registries.enter i target).2 }.after a
    w.after (Shell.redirected i target a) =
      { w' with registries := w'.registries.leave (w.registries.enter i target).1 } := by
  intro w'
  cases h : a.run { w with registries := (w.registries.enter i target).2 } with
  | ok x v =>
    rw [after_of_ok (Shell.run_redirected_ok i target h), show w' = v from after_of_ok h]
  | error f v =>
    rw [after_of_error (Shell.run_redirected_error i target h), show w' = v from after_of_error h]

/-! ## A tree with one module -/

/-- A walk from the root tells where an absolute path leads, if the path is not too long. -/
theorem FileTree.resolve_of_leads {t : FileTree} {name : String} (hempty : name ≠ "")
    (hlength : name.utf8ByteSize < pathLimit) (hroot : Path.rootOf name ≠ "") {last : LastName}
    {d : Destination} (h : Leads t last maxLinks [] (Path.components name) d)
    (cwd : WorkingDirectory) : t.resolve cwd last name = .ok d := by
  rw [resolve, if_neg hempty, if_neg (Nat.not_le.mpr hlength), if_neg hroot, walk_of_leads h]

/-- A path that leads to a node is told to be there. -/
theorem Files.run_isThere {path : Path} {name : String} {place : Location} {node : Node} {w : World}
    (hname : fileName path.text = .ok name)
    (h : w.files.resolve w.cwd .followed name = .ok (.found place node)) :
    (isThere path).run w = .ok true w := by
  apply run_ask_ok hname
  rw [FileTree.find, h]
  rfl

/-- A path that leads to a directory is told to be one. -/
theorem Files.run_isDirectory {path : Path} {name : String} {place : Location} {w : World}
    (hname : fileName path.text = .ok name)
    (h : w.files.resolve w.cwd .followed name = .ok (.found place .directory)) :
    (isDirectory path).run w = .ok true w := by
  apply run_ask_ok hname
  rw [FileTree.find, h]
  rfl

/-- A tree with one directory of modules, in which there is one module. -/
def sampleTree (m : Module) : FileTree :=
  ⟨⟨[(["cmds"], .directory), (["cmds", "extra"], .directory),
    (["cmds", "extra", "__init__.py"], .file (.code m))]⟩⟩

/-- The directory of modules. -/
def sampleDirectory : Path := ⟨"/", ["cmds"]⟩

/-- The initial file of the module. -/
def sampleFile : Path := ⟨"/", ["cmds", "extra", "__init__.py"]⟩

/-- The search directory of the sample is absolute. -/
theorem isRooted_sampleDirectory : sampleDirectory.IsRooted := by
  decide

/-- So is the file of its module. -/
theorem isRooted_sampleFile : sampleFile.IsRooted := isRooted_sampleDirectory

section

open FileTree

variable (m : Module) (cwd : WorkingDirectory) {rest : List String} {d : Destination}

/-- The names in the sample are names that a walk looks up. -/
theorem isName_sample {c : String} (hc : c ∈ ["cmds", "extra", "__init__.py"]) : IsName c := by
  simp only [List.mem_cons, List.not_mem_nil, or_false] at hc
  rcases hc with rfl | rfl | rfl
  · exact ⟨by decide, by decide, by decide⟩
  · exact ⟨by decide, by decide, by decide⟩
  · exact ⟨by decide, by decide, by decide⟩

/-- A walk in the sample enters the search directory. -/
theorem leads_cmds (h : Leads (sampleTree m) .followed maxLinks ["cmds"] rest d) :
    Leads (sampleTree m) .followed maxLinks [] ("" :: "cmds" :: rest) d :=
  .skip (.inl rfl) (.enter (isName_sample (by simp)) rfl (by simp) h)

/-- From there it enters the directory of the module. -/
theorem leads_extra (h : Leads (sampleTree m) .followed maxLinks ["cmds", "extra"] rest d) :
    Leads (sampleTree m) .followed maxLinks [] ("" :: "cmds" :: "extra" :: rest) d :=
  leads_cmds m (.enter (isName_sample (by simp)) rfl (by simp) h)

/-- From the root a walk comes to the file of the module. -/
theorem leads_sampleFile : Leads (sampleTree m) .followed maxLinks []
    ["", "cmds", "extra", "__init__.py"]
    (.found ["cmds", "extra", "__init__.py"] (.file (.code m))) :=
  leads_extra m (.file (isName_sample (by simp)) rfl)

/-- The path of the search directory leads to it. -/
theorem resolve_cmds :
    (sampleTree m).resolve cwd .followed "/cmds" = .ok (.found ["cmds"] .directory) :=
  resolve_of_leads (by decide) (by decide) (by decide) (leads_cmds m .here) cwd

/-- The path of the module leads to its directory. -/
theorem resolve_extra : (sampleTree m).resolve cwd .followed "/cmds/extra"
    = .ok (.found ["cmds", "extra"] .directory) :=
  resolve_of_leads (by decide) (by decide) (by decide) (leads_extra m .here) cwd

/-- The path of the file leads to it. -/
theorem resolve_sampleFile : (sampleTree m).resolve cwd .followed "/cmds/extra/__init__.py"
    = .ok (.found ["cmds", "extra", "__init__.py"] (.file (.code m))) :=
  resolve_of_leads (by decide) (by decide) (by decide) (leads_sampleFile m) cwd

/-- The module is read from its file. -/
theorem read_sampleTree : (sampleTree m).read cwd "/cmds/extra/__init__.py"
    = .ok (["cmds", "extra", "__init__.py"], .code m) :=
  read_eq_ok_iff.mpr (walk_of_leads (leads_sampleFile m))

end

/-- The one module of the tree is found. -/
theorem run_index_sample {w : World} {m : Module} (hfiles : w.files = sampleTree m)
    (hdirectories : w.loader.directories = [sampleDirectory]) :
    Loader.index.run w = .ok ⟨[("extra", sampleFile)]⟩ w := by
  have hcmds := resolve_cmds m w.cwd
  rw [← hfiles] at hcmds
  have hlist : (Files.list sampleDirectory).run w = .ok [⟨"/", ["cmds", "extra"]⟩] w := by
    have hnames : w.files.names ["cmds"] = ["extra"] := by
      rw [hfiles]
      simp [FileTree.names, sampleTree, Table.keys]
    have hlisting : w.files.listing w.cwd "/cmds" = .ok ["extra"] := by
      rw [FileTree.listing, FileTree.directory, hcmds, ← hnames]
      rfl
    exact Files.run_list rfl hlisting
  -- The one entry is a directory with an initial file.
  have hinitial : (initialFileAt ⟨"/", ["cmds", "extra"]⟩).run w = .ok (some sampleFile) w := by
    have hextra := resolve_extra m w.cwd
    have hfile := resolve_sampleFile m w.cwd
    rw [← hfiles] at hextra hfile
    have hdirectory : (Files.isDirectory ⟨"/", ["cmds", "extra"]⟩).run w = .ok true w :=
      Files.run_isDirectory rfl hextra
    have hthere : (Files.isThere sampleFile).run w = .ok true w := Files.run_isThere rfl hfile
    exact (Shell.run_bind_ok hdirectory _).trans (Shell.run_bind_ok hthere _)
  have hdiscover : (discover sampleDirectory).run w = .ok [sampleFile] w := by
    unfold discover
    rw [Shell.run_bind_ok (Files.run_isThere rfl hcmds)]
    refine (Shell.run_bind_ok (Files.run_isDirectory rfl hcmds) _).trans ?_
    refine (Shell.run_bind_ok hlist _).trans ?_
    exact Shell.run_bind_ok hinitial _
  have hall : ([sampleDirectory].mapM discover).run w = .ok [[sampleFile]] w := by
    rw [List.mapM_cons]
    exact Shell.run_bind_ok hdiscover _
  unfold Loader.index
  rw [Shell.run_bind_ok (EStateM.run_get w), hdirectories, Shell.run_bind_ok hall]
  rfl

end CommandShell
