import CommandShell.Proofs.Loader.Routine
import CommandShell.Proofs.Loader.Shadowing

/-! # Loading one by one

Loading all modules searches once and goes through what is found; loading a name searches anew each time.
No import changes what a search gives (`Loader.frame_modules`), so both come to the same
(`Loader.loadAll_eq_load_each`): the two loops run side by side in worlds that differ in reports only
(`Loader.matches_loadFound`). -/

namespace CommandShell

open Shell

/-- A normal name is its own normal name. -/
theorem normalName_normalName (name : String) : normalName (normalName name) = normalName name := by
  have hchar (c : Char) : (if (if c = '-' then '_' else c) = '-' then '_' else if c = '-' then '_' else c)
      = if c = '-' then '_' else c := by
    by_cases hc : c = '-'
    · rw [if_pos hc]
      rfl
    · rw [if_neg hc, if_neg hc]
  unfold normalName
  rw [String.toList_ofList, List.map_map]
  exact congrArg String.ofList (List.map_congr_left fun c _ => hchar c)

namespace World

variable {w u : World} {t : Table String Path}

/-- Loading alike goes both ways. -/
theorem LoadsAlike.symm (h : w.LoadsAlike u) : u.LoadsAlike w := by
  refine ⟨?_, Eq.symm h.traces, h.names.symm⟩
  rw [h.same]
  rfl

/-- The modules of a world are under normal names. -/
theorem normalName_of_mem_modules (h : w.modules = .ok t) {k : String} (hk : k ∈ t.keys) :
    normalName k = k := by
  obtain ⟨files, rfl⟩ : ∃ files, t = indexOf files := by
    unfold modules at h
    cases hfiles : w.loader.directories.mapM w.modulesIn with
    | error f =>
      rw [hfiles] at h
      cases h
    | ok files =>
      rw [hfiles] at h
      cases h
      exact ⟨_, rfl⟩
  obtain ⟨file, hfile⟩ := Table.mem_keys_iff.mp hk
  rw [get?_indexOf] at hfile
  have hkey := List.find?_some hfile
  rw [← beq_iff_eq.mp hkey, normalName_normalName]

/-- Two worlds are the same but for reports and tell the same about loading, and they have these modules. -/
structure Offering (t : Table String Path) (w u : World) : Prop where
  /-- They are the same but for reports. -/
  alike : w.LoadsAlike u
  /-- They have these modules. -/
  modules : w.modules = .ok t

/-- A record that is not about a failed load may come to the one world alone. -/
theorem Offering.log {level : Level} {source : LogSource} {message : String}
    (h : (Event.log level source message).isFailedLoad = false) (hw : Offering t w u) :
    Offering t (w.emitted (w.reports level source message)) u :=
  ⟨(hw.alike.symm.log h).symm, hw.modules⟩

end World

namespace Loader

open World

variable {w u v : World} {t : Table String Path} {key : String} {file : Path}

/-- **Loading changes no module**: what a search gives is the same. -/
theorem frame_modules : Frame.Loading fun w w' : World => w'.modules = w.modules where
  refl _ := rfl
  trans h h' := h'.trans h
  emitted _ _ := rfl
  registries _ _ := rfl
  imports _ _ := rfl
  attempted _ _ := rfl

/-- **An import** ends alike in worlds that differ in reports only, and leaves the modules. -/
theorem carries_importModule (key : String) (file : Path) :
    Carries (Offering t) (importModule key file) := by
  have hcarries : Carries LoadsAlike (importModule key file) :=
    (routine_importModule key file).carries_plain (unnoticed_alike grows_sameLoading)
  have hmodules := frame_modules.within_importModule key file
  intro w u h
  cases hrun : (importModule key file).run w with
  | ok b w' =>
    obtain ⟨u', hrun', hu'⟩ := hcarries.of_ok h.alike hrun
    rw [hrun']
    exact .ok ⟨hu', (hmodules.of_ok hrun).trans h.modules⟩
  | error f w' =>
    obtain ⟨u', hrun', hu'⟩ := hcarries.of_error h.alike hrun
    rw [hrun']
    exact .error ⟨hu', (hmodules.of_error hrun).trans h.modules⟩

/-! ## Two loops -/

/-- A module that is not marked is searched for again and imported. -/
theorem run_load_of_new (hkey : normalName key = key) (hnew : key ∉ w.loader.attempted)
    (hindex : index.run w = .ok t v) (hfile : t.get? key = some file) :
    (load key).run w = (importModule key file >>= fun _ => pure ()).run v := by
  unfold load
  rw [run_bind_ok (EStateM.run_get w), hkey, if_neg (mt List.contains_iff_mem.mp hnew),
    run_bind_ok hindex, hfile]

/-- A marked module is passed over. -/
theorem run_loadFound_of_marked (verbose : Bool) {fs : List (String × Path)}
    (h : key ∈ w.loader.attempted) :
    (loadFound verbose ((key, file) :: fs)).run w = (loadFound verbose fs).run w := by
  rw [loadFound, run_bind_ok (EStateM.run_get w), if_pos (List.contains_iff_mem.mpr h)]

/-- What is done after a module was imported: a report perhaps, and the rest. -/
def loadRest (verbose : Bool) (key : String) (fs : List (String × Path)) (succeeded : Bool) : Shell Nat := do
  if succeeded && verbose then Shell.log .info .loader ("Loaded command: " ++ key)
  let more ← loadFound verbose fs
  pure (if succeeded then more + 1 else more)

/-- A module without a mark is imported before the others are looked at. -/
theorem run_loadFound_of_new (verbose : Bool) {fs : List (String × Path)}
    (h : key ∉ w.loader.attempted) : (loadFound verbose ((key, file) :: fs)).run w
      = (importModule key file >>= loadRest verbose key fs).run w := by
  rw [loadFound, run_bind_ok (EStateM.run_get w), if_neg (mt List.contains_iff_mem.mp h)]
  rfl

/-- Neither the report nor the count is of account to the rest. -/
theorem matches_loadRest {verbose : Bool} {fs : List (String × Path)} {b : Shell Unit}
    (h : Matches (Offering t) (loadFound verbose fs >>= fun _ => pure ()) b) (key : String)
    (succeeded : Bool) :
    Matches (Offering t) (loadRest verbose key fs succeeded >>= fun _ => pure ()) b := by
  have hmore : ((loadFound verbose fs >>= fun more => pure (if succeeded then more + 1 else more)) >>=
      fun _ => pure () : Shell Unit) = loadFound verbose fs >>= fun _ => pure () := by
    simp only [bind_assoc, pure_bind]
  unfold loadRest
  dsimp only
  split
  · rw [bind_assoc, hmore]
    intro w u hw
    rw [run_bind_ok (run_log _ _ _ w)]
    exact h _ u (hw.log rfl)
  · rw [hmore]
    exact h

/-- **The two loops match.** Going through modules that were found comes to the same as loading each of
them by its name. -/
theorem matches_loadFound (verbose : Bool) (ht : t.keys.Nodup) {fs : List (String × Path)}
    (hfs : ∀ f ∈ fs, f ∈ t.toList) : Matches (Offering t)
      (loadFound verbose fs >>= fun _ => pure ()) ((fs.map Prod.fst).forM load) := by
  -- By induction on what was found. That the modules of the world stay these carries it.
  induction fs with
  | nil => exact fun w u h => .ok h
  | cons f fs ih =>
    obtain ⟨key, file⟩ := f
    obtain ⟨hmem, hrest⟩ := List.forall_mem_cons.mp hfs
    have hloop := ih hrest
    intro w u h
    have hkey : normalName key = key :=
      normalName_of_mem_modules h.modules (List.mem_map_of_mem hmem)
    have hattempted : u.loader.attempted = w.loader.attempted := by
      rw [h.alike.same]
      rfl
    show SameEnd _ _ ((load key >>= fun _ => (fs.map Prod.fst).forM load).run u)
    by_cases hmarked : key ∈ w.loader.attempted
    · -- Both loops pass over a marked module; the second one does not even search.
      have hload : (load key).run u = .ok () u := run_load_of_marked (by rwa [hkey, hattempted])
      rw [EStateM.run_bind, run_loadFound_of_marked verbose hmarked, ← EStateM.run_bind,
        run_bind_ok hload]
      exact hloop w u h
    · -- The second loop searches again, and finds the same.
      have hsearch := steadily_index (w := w)
      rw [h.modules] at hsearch
      obtain ⟨v, hindex, hv⟩ := hsearch.run_ok h.alike
      have hload := run_load_of_new hkey (by rwa [hattempted]) hindex (Table.get?_of_mem ht hmem)
      rw [EStateM.run_bind, run_loadFound_of_new verbose hmarked, ← EStateM.run_bind,
        EStateM.run_bind (load key), hload, ← EStateM.run_bind, bind_assoc, bind_assoc]
      refine matches_bind (carries_importModule key file) (fun succeeded => ?_) w v ⟨hv, h.modules⟩
      rw [pure_bind]
      exact matches_loadRest hloop key succeeded

/-- **Loading all is loading one by one.** Let the search give some modules. Loading all of them ends as
loading each of their names does, in the order of the search: with nothing, or with the same fault. The
worlds are then the same but for the trace, so they have the same registries and the same marks; and the
traces are the same once all reports other than warnings about failed loads are left out. Loading all
imports the modules that are not marked, in order, up to a fault that escapes. If none does, it imports all
of them and gives the number of those whose import succeeds. -/
theorem loadAll_eq_load_each (w : World) (verbose : Bool) {t : Table String Path}
    (h : w.outcome index = .ok t) :
    let each := t.keys.forM load
    let due := t.toList.filter fun f => f.1 ∉ w.loader.attempted
    (w.outcome (loadAll verbose)).map (fun _ => ()) = w.outcome each ∧
      (w.after (loadAll verbose)).LoadsAlike (w.after each) ∧
      ∃ is, Imports w due is (w.outcome each) (w.after (loadAll verbose)) ∧
        ∀ n, w.outcome (loadAll verbose) = .ok n →
          is.map (fun i => (i.key, i.file)) = due ∧ n = is.countP Import.succeeds := by
  intro each due
  -- The search has reported something, but the modules are those of the first world.
  have hmodules : w.modules = .ok t := by
    rw [← (steadily_index w (LoadsAlike.refl w)).1, h]
  have hsearch := steadily_index (w := w)
  rw [hmodules] at hsearch
  obtain ⟨v, hindex, hv⟩ := hsearch.run_ok (LoadsAlike.refl w)
  have hend : SameEnd (Offering t) ((loadAll verbose >>= fun _ => pure ()).run w) (each.run w) := by
    have hfirst : Offering t v w :=
      ⟨hv.symm, ((heeds_index frame_modules.toLogging).within.of_ok hindex).trans hmodules⟩
    have hall : (loadAll verbose >>= fun _ => pure ()).run w
        = (loadFound verbose t.toList >>= fun _ => pure ()).run v := by
      rw [EStateM.run_bind, loadAll, run_bind_ok hindex, ← EStateM.run_bind]
    rw [hall]
    exact matches_loadFound verbose (nodup_index hindex) (fun _ => id) v w hfirst
  have hends := hend.outcome
  have hafter := hend.after.alike
  rw [outcome_bind_pure] at hends
  rw [after_bind_pure] at hafter
  obtain ⟨is, himports, hcount⟩ := servesWith_loadAll verbose hindex
  refine ⟨hends, hafter, is, hends ▸ himports, fun n hn => ⟨himports.map_eq_of_ok ?_, hcount n hn⟩⟩
  rw [hn]
  rfl

/-! ## Three modules -/

section

open FileTree

/-- Three modules: the first two register a command, the last one fails. -/
def offeredModule (name : String) : Module :=
  if name = "wrong" then .script [.raise ⟨"RuntimeError", .ordinary, some "no"⟩]
  else .script [.define ⟨name, "A command", none, [], false⟩ []]

/-- The names of the modules. -/
def offeredNames : List String := ["extra", "known", "wrong"]

/-- A tree with one directory, in which there are the modules. -/
def offeredTree : FileTree :=
  ⟨⟨(["cmds"], .directory) :: offeredNames.flatMap fun name =>
    [(["cmds", name], .directory),
      (["cmds", name, "__init__.py"], .file (.code (offeredModule name)))]⟩⟩

/-- A world in which the modules are found. The second one is marked. -/
def offeringWorld : World :=
  { (default : World) with
    files := offeredTree
    loader := ⟨[sampleDirectory], default, ["known"]⟩ }

/-- The initial file of a module. -/
def offeredFile (name : String) : Path := moduleFile sampleDirectory name

/-- Where the directory, a module and its file stand. -/
theorem leads_offered {name : String} (h : name ∈ offeredNames) :
    Leads offeredTree .followed maxLinks [] ["", "cmds"] (.found ["cmds"] .directory) ∧
    Leads offeredTree .followed maxLinks [] ["", "cmds", name] (.found ["cmds", name] .directory) ∧
    Leads offeredTree .followed maxLinks [] ["", "cmds", name, "__init__.py"]
      (.found ["cmds", name, "__init__.py"] (.file (.code (offeredModule name)))) := by
  have hcmds : IsName "cmds" := by unfold IsName; decide
  have hinitial : IsName "__init__.py" := by unfold IsName; decide
  have hname : IsName name := by
    revert name
    unfold IsName
    decide
  have hmodule : offeredTree.node? ["cmds", name] = some .directory := by
    simp only [offeredNames, List.mem_cons, List.not_mem_nil, or_false] at h
    rcases h with rfl | rfl | rfl
    · rfl
    · rfl
    · rfl
  have hfile : offeredTree.node? ["cmds", name, "__init__.py"]
      = some (.file (.code (offeredModule name))) := by
    simp only [offeredNames, List.mem_cons, List.not_mem_nil, or_false] at h
    rcases h with rfl | rfl | rfl
    · rfl
    · rfl
    · rfl
  exact ⟨.skip (.inl rfl) (.enter hcmds rfl (by simp) .here),
    .skip (.inl rfl) (.enter hcmds rfl (by simp) (.enter hname hmodule (by simp) .here)),
    .skip (.inl rfl) (.enter hcmds rfl (by simp)
      (.enter hname hmodule (by simp) (.file hinitial hfile)))⟩

/-- What the paths of the search lead to. -/
theorem nodeAt_offered {name : String} (h : name ∈ offeredNames) :
    offeringWorld.nodeAt sampleDirectory = .ok (some .directory) ∧
      offeringWorld.nodeAt (sampleDirectory.entry name) = .ok (some .directory) ∧
      offeringWorld.nodeAt (offeredFile name) = .ok (some (.file (.code (offeredModule name)))) := by
  obtain ⟨hcmds, hmodule, hfile⟩ := leads_offered h
  have hnode {path : Path} (text : String) {place : Location} {node : Node}
      (htext : Files.fileName path.text = .ok text)
      (hshort : text ≠ "" ∧ text.utf8ByteSize < pathLimit ∧ Path.rootOf text ≠ "")
      (hleads : Leads offeredTree .followed maxLinks [] (Path.components text) (.found place node)) :
      offeringWorld.nodeAt path = .ok (some node) := by
    refine World.nodeAt_eq_some_iff.mpr ⟨text, htext, ?_⟩
    have hresolve := resolve_of_leads hshort.1 hshort.2.1 hshort.2.2 hleads offeringWorld.cwd
    rw [FileTree.find, show offeringWorld.files = offeredTree from rfl, hresolve]
  simp only [offeredNames, List.mem_cons, List.not_mem_nil, or_false] at h
  rcases h with rfl | rfl | rfl
  · exact ⟨hnode "/cmds" rfl (by decide) hcmds,
      hnode "/cmds/extra" rfl (by decide) hmodule,
      hnode "/cmds/extra/__init__.py" rfl (by decide) hfile⟩
  · exact ⟨hnode "/cmds" rfl (by decide) hcmds,
      hnode "/cmds/known" rfl (by decide) hmodule,
      hnode "/cmds/known/__init__.py" rfl (by decide) hfile⟩
  · exact ⟨hnode "/cmds" rfl (by decide) hcmds,
      hnode "/cmds/wrong" rfl (by decide) hmodule,
      hnode "/cmds/wrong/__init__.py" rfl (by decide) hfile⟩

/-- **The search** finds the three modules. -/
theorem outcome_index_offering : offeringWorld.outcome index
    = .ok ⟨offeredNames.map fun name => (name, offeredFile name)⟩ := by
  have hextra : "extra" ∈ offeredNames := by decide
  have hlisted : offeringWorld.listed sampleDirectory = offeredNames := by
    have hnames : offeredTree.names ["cmds"] = offeredNames := by
      have hinside : (offeredTree.nodes.keys.filterMap fun l =>
          if l.dropLast = ["cmds"] then l.getLast? else none) = offeredNames := by decide
      have hsorted : offeredNames.Pairwise fun a b => decide (a ≤ b) = true := by decide
      rw [FileTree.names, hinside]
      exact List.mergeSort_of_pairwise hsorted
    have hcmds : offeringWorld.files.resolve offeringWorld.cwd .followed "/cmds"
        = .ok (.found ["cmds"] .directory) :=
      resolve_of_leads (by decide) (by decide) (by decide) (leads_offered hextra).1 _
    have htext : Files.fileName sampleDirectory.text = .ok "/cmds" := rfl
    rw [World.listed, htext]
    simp only [FileTree.listing, FileTree.directory, hcmds]
    exact hnames
  -- Each of the names is a directory with an initial file.
  have hinitial (name : String) (h : name ∈ offeredNames) :
      offeringWorld.initialAt (sampleDirectory.entry name) = .ok (some (offeredFile name)) := by
    have hvisible : Visible name := by
      revert name
      decide
    obtain ⟨-, hmodule, hfile⟩ := nodeAt_offered h
    rw [initialAt_entry, hmodule]
    show (if _ then _ else _) = _
    rw [if_pos ⟨rfl, hvisible⟩]
    exact congrArg (Except.map _) hfile
  have hmodules : offeringWorld.modulesIn sampleDirectory = .ok (offeredNames.map offeredFile) := by
    obtain ⟨hcmds, -, -⟩ := nodeAt_offered hextra
    have hfound : (offeredNames.mapM fun name => offeringWorld.initialAt (sampleDirectory.entry name))
        = .ok (offeredNames.map fun name => some (offeredFile name)) := by
      simp only [offeredNames, List.mapM_cons, List.mapM_nil, hinitial "extra" (by decide),
        hinitial "known" (by decide), hinitial "wrong" (by decide)]
      rfl
    rw [modulesIn_eq_bind, hcmds, hlisted, hfound]
    rfl
  have hall : offeringWorld.loader.directories.mapM offeringWorld.modulesIn
      = .ok [offeredNames.map offeredFile] := by
    show [sampleDirectory].mapM offeringWorld.modulesIn = _
    rw [List.mapM_cons, hmodules]
    rfl
  rw [(steadily_index offeringWorld (LoadsAlike.refl _)).1, World.modules, hall]
  rfl

/-- Executing the file of one of the modules runs the module. -/
theorem run_executeFile_offered {name : String} (h : name ∈ offeredNames) {v : World}
    (hfiles : v.files = offeredTree) :
    (executeFile (offeredFile name)).run v = ((offeredModule name).run name).run v := by
  obtain ⟨-, -, hfile⟩ := leads_offered h
  have hrun (text : String) (htext : Files.fileName (offeredFile name).text = .ok text)
      (hshort : text ≠ "" ∧ text.utf8ByteSize < pathLimit ∧ Path.rootOf text ≠ "")
      (hleads : Leads offeredTree .followed maxLinks [] (Path.components text)
        (.found ["cmds", name, "__init__.py"] (.file (.code (offeredModule name))))) :
      (executeFile (offeredFile name)).run v = ((offeredModule name).run name).run v := by
    have hread : v.files.read v.cwd text
        = .ok (["cmds", name, "__init__.py"], .code (offeredModule name)) := by
      rw [hfiles, FileTree.read, resolve_of_leads hshort.1 hshort.2.1 hshort.2.2 hleads]
    have hrooted : (offeredFile name).IsRooted := isRooted_sampleDirectory
    exact run_executeFile_of_read hrooted htext hread
  simp only [offeredNames, List.mem_cons, List.not_mem_nil, or_false] at h
  rcases h with rfl | rfl | rfl
  · exact hrun "/cmds/extra/__init__.py" rfl (by decide) hfile
  · exact hrun "/cmds/known/__init__.py" rfl (by decide) hfile
  · exact hrun "/cmds/wrong/__init__.py" rfl (by decide) hfile

end

/-- Importing a file leaves the files. -/
theorem importing_files : Shell.Frame.Importing fun w w' : World => w'.files = w.files where
  refl _ := rfl
  trans h h' := h'.trans h
  emitted _ _ := rfl
  registries _ _ := rfl
  imports _ _ := rfl

/-- An import leaves the files, also if it is marked. -/
theorem Import.files_after (i : Import) : i.after.files = i.world.files := by
  have hleft : i.left.files = i.world.files :=
    importing_files.within_redirected (importing_files.within_importFile i.file) _ _ i.world
  unfold Import.after
  split
  · exact hleft
  · exact hleft

/-- The first module is imported with success, whatever was reported before. -/
theorem succeeds_extra {i : Import} (hfile : i.file = offeredFile "extra")
    (hworld : offeringWorld.OnlyReports i.world) : i.escape? = none ∧ i.succeeds = true := by
  obtain ⟨es, -, hi⟩ := hworld
  have hexecute : i.entered.outcome (executeFile i.file) = .ok () := by
    rw [hfile, World.outcome, run_executeFile_offered (by decide) (by rw [Import.entered, hi]; rfl),
      Import.entered, hi]
    rfl
  rw [Import.escape?, Import.succeeds, hexecute]
  exact ⟨rfl, rfl⟩

/-- The last module fails wherever it is imported, and no fault escapes. -/
theorem fails_wrong {i : Import} (hfile : i.file = offeredFile "wrong")
    (hfiles : i.world.files = offeredTree) : i.escape? = none ∧ i.succeeds = false := by
  have hexecute : i.entered.outcome (executeFile i.file)
      = .error (.raised ⟨"RuntimeError", .ordinary, some "no"⟩) := by
    have hentered : i.entered.files = offeredTree := hfiles
    rw [hfile, World.outcome, run_executeFile_offered (by decide) hentered]
    rfl
  rw [Import.escape?, Import.succeeds, hexecute]
  exact ⟨rfl, rfl⟩

/-- Of the modules that are due, the first one succeeds and the other one fails. -/
theorem succeeds_offered {is : List Import} {r : Except Fault Unit} {w' : World}
    (h : Imports offeringWorld
      [("extra", offeredFile "extra"), ("wrong", offeredFile "wrong")] is r w') :
    is.map Import.succeeds = [true, false] ∧ r = .ok () := by
  generalize hfs : [("extra", offeredFile "extra"), ("wrong", offeredFile "wrong")] = fs at h
  cases h with
  | done last => cases hfs
  | @escaped _ i _ f first hsome =>
    obtain ⟨hfirst, -⟩ := List.cons.inj hfs
    rw [(succeeds_extra (Prod.mk.inj hfirst).2.symm first).1] at hsome
    cases hsome
  | @completed _ _ i fs' is' _ first hnone rest =>
    obtain ⟨hfirst, rfl⟩ := List.cons.inj hfs
    have hextra := (succeeds_extra (Prod.mk.inj hfirst).2.symm first).2
    -- An import leaves the files, so the second module is still the one that was found.
    have hfiles {j : Import} (hreports : i.after.OnlyReports j.world) :
        j.world.files = offeredTree := by
      obtain ⟨es, -, hj⟩ := hreports
      obtain ⟨es', -, hi⟩ := first
      rw [hj]
      show i.after.files = _
      rw [i.files_after, hi]
      rfl
    generalize hfs' : [("wrong", offeredFile "wrong")] = fs at rest
    cases rest with
    | done last => cases hfs'
    | @escaped _ j _ f second hsome =>
      obtain ⟨hsecond, -⟩ := List.cons.inj hfs'
      rw [(fails_wrong (Prod.mk.inj hsecond).2.symm (hfiles second)).1] at hsome
      cases hsome
    | @completed _ _ j fs'' is'' _ second hnone' last =>
      obtain ⟨hsecond, rfl⟩ := List.cons.inj hfs'
      have hwrong := (fails_wrong (Prod.mk.inj hsecond).2.symm (hfiles second)).2
      cases last
      exact ⟨by rw [List.map_cons, List.map_singleton, hextra, hwrong], rfl⟩

/-- Of three modules one is marked and one fails: loading all of them gives one, as loading each does. -/
theorem loadAll_eq_load_each_offered :
    offeringWorld.outcome (loadAll true) = .ok 1 ∧
      offeringWorld.outcome (offeredNames.forM load) = .ok () ∧
      (offeringWorld.after (loadAll true)).LoadsAlike (offeringWorld.after (offeredNames.forM load)) ∧
      ∃ is, Imports offeringWorld [("extra", offeredFile "extra"), ("wrong", offeredFile "wrong")] is
        (.ok ()) (offeringWorld.after (loadAll true)) ∧ is.map Import.succeeds = [true, false] := by
  obtain ⟨hends, hafter, is, himports, hcount⟩ :=
    loadAll_eq_load_each offeringWorld true outcome_index_offering
  obtain ⟨hsucceeds, heach⟩ := succeeds_offered himports
  have hone : is.countP Import.succeeds = 1 := by
    have hcounted := List.countP_map (p := id) (f := Import.succeeds) (l := is)
    rw [hsucceeds] at hcounted
    exact hcounted.symm
  refine ⟨?_, heach, hafter, is, heach ▸ himports, hsucceeds⟩
  rw [heach] at hends
  cases hall : offeringWorld.outcome (loadAll true) with
  | ok n => rw [(hcount n hall).2, hone]
  | error f =>
    rw [hall] at hends
    cases hends

end Loader

end CommandShell
