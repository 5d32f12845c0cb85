import CommandShell.Proofs.Loader.Imports
import CommandShell.Proofs.Loader.Searchable
import Mathlib.Data.String.Basic

/-! # Which module counts

Of several modules of one normal name the first counts: the one in the earliest search directory, and in
this the one with the least name (`World.IsFirst`). If no path that the search asks about is too long, the
names of the modules that count are given, in ascending order, and the first load of such a name imports the
module that counts (`Loader.modules_that_count`). -/

namespace CommandShell

open Shell

/-! ## Names in order -/

/-- Sorted names are ascending. -/
theorem pairwise_mergeSort_le (names : List String) :
    (names.mergeSort fun a b => decide (a ≤ b)).Pairwise (· ≤ ·) :=
  pairwise_mergeSort_by_le id names

/-- The names in a directory are ascending. -/
theorem FileTree.pairwise_names (t : FileTree) (place : Location) :
    (t.names place).Pairwise (· ≤ ·) :=
  pairwise_mergeSort_le _

namespace World

variable {w : World} {directory path : Path} {name : String}

/-! ## Modules that count -/

/-- The initial files that the search finds, in order. -/
def foundFiles (w : World) : List Path :=
  w.loader.directories.flatMap fun d => (w.listed d).filterMap (w.moduleAt d)

/-- **The search** gives the modules unless a path that it asks about is too long. -/
theorem yields_modules (w : World) : w.Yields (∀ d ∈ w.loader.directories, w.Searchable d)
    w.modules (indexOf w.foundFiles) := by
  have hall := yields_mapM fun d (_ : d ∈ w.loader.directories) => yields_modulesIn (w := w) d
  have hindex := hall.map fun files => indexOf files.flatten
  rw [← List.flatMap_def] at hindex
  have hmodules : w.modules = (w.loader.directories.mapM w.modulesIn).map
      fun files => indexOf files.flatten := by
    unfold modules
    cases w.loader.directories.mapM w.modulesIn with
    | error f => rfl
    | ok files => rfl
  rw [hmodules]
  exact hindex

/-- The first file of a name is the one under it. -/
theorem get?_indexOf (files : List Path) (k : String) :
    (indexOf files).get? k = files.find? fun f => normalName f.parent.name == k := by
  -- What a table has already stays the first of its name.
  have hfold (t : Table String Path) :
      (files.foldl (fun t f => t.putNew (normalName f.parent.name) f) t).get? k
        = (t.get? k).or (files.find? fun f => normalName f.parent.name == k) := by
    induction files generalizing t with
    | nil => rw [List.foldl_nil, List.find?_nil, Option.or_none]
    | cons f files ih =>
      rw [List.foldl_cons, ih, List.find?_cons, Table.get?_putNew]
      cases hk : normalName f.parent.name == k with
      | true =>
        obtain rfl := beq_iff_eq.mp hk
        cases t.get? (normalName f.parent.name) <;> simp
      | false =>
        have hne : normalName f.parent.name ≠ k := by simpa using hk
        cases t.get? k <;> simp [hne]
  exact hfold {}

/-- Of the modules of a normal name, this one counts: it is in the earliest directory that has one, and of
those in this directory it has the least name. -/
structure IsFirst (w : World) (k : String) (directory : Path) (name : String) : Prop where
  /-- There is this module. -/
  isModule : w.IsModule directory name
  /-- It has the normal name. -/
  key : normalName name = k
  /-- Earlier directories have no module of the normal name. -/
  earliest : ∃ before after, w.loader.directories = before ++ directory :: after ∧
    ∀ d ∈ before, ∀ n, w.IsModule d n → normalName n ≠ k
  /-- No other module of the normal name in the directory has a lesser name. -/
  least : ∀ n, w.IsModule directory n → normalName n = k → name ≤ n

/-- The file of a module stands under the normal name of the module. -/
theorem key_moduleFile (directory : Path) (name : String) :
    normalName (moduleFile directory name).parent.name = normalName name := by
  rw [parent_moduleFile, Path.name_entry]

/-- What a directory lists is ascending. -/
theorem pairwise_listed (w : World) (directory : Path) : (w.listed directory).Pairwise (· ≤ ·) := by
  unfold listed
  split
  · exact .nil
  · split
    · rename_i names hlisting
      unfold FileTree.listing at hlisting
      cases hdirectory : w.files.directory w.cwd _ with
      | error e =>
        rw [hdirectory] at hlisting
        cases hlisting
      | ok d =>
        rw [hdirectory] at hlisting
        cases hlisting
        dsimp only
        cases d.location? with
        | none => exact .nil
        | some place => exact FileTree.pairwise_names w.files place
    · exact .nil

/-- The files that are found in a directory are those of its modules. -/
theorem mem_filterMap_moduleAt {file : Path} :
    file ∈ (w.listed directory).filterMap (w.moduleAt directory) ↔
      ∃ n, w.IsModule directory n ∧ file = moduleFile directory n := by
  rw [List.mem_filterMap]
  constructor
  · rintro ⟨n, hn, hfile⟩
    exact ⟨n, (moduleAt_eq_some_iff (mem_listed_iff.mp hn)).mp hfile⟩
  · rintro ⟨n, hmodule, rfl⟩
    exact ⟨n, mem_listed_iff.mpr hmodule.listed,
      (moduleAt_eq_some_iff hmodule.listed).mpr ⟨hmodule, rfl⟩⟩

/-- The first file of a normal name in a directory is that of the least name. -/
theorem exists_least_of_find? {k : String} {file : Path}
    (h : ((w.listed directory).filterMap (w.moduleAt directory)).find?
      (fun f => normalName f.parent.name == k) = some file) :
    ∃ name, w.IsModule directory name ∧ normalName name = k ∧ file = moduleFile directory name ∧
      ∀ n, w.IsModule directory n → normalName n = k → name ≤ n := by
  rw [List.find?_filterMap] at h
  obtain ⟨name, hfirst, hfile⟩ := Option.bind_eq_some_iff.mp h
  obtain ⟨hkey, before, after, hsplit, hbefore⟩ := List.find?_eq_some_iff_append.mp hfirst
  have hname : name ∈ w.listed directory := List.mem_of_find?_eq_some hfirst
  obtain ⟨hmodule, rfl⟩ := (moduleAt_eq_some_iff (mem_listed_iff.mp hname)).mp hfile
  rw [hfile, Option.any_some, key_moduleFile, beq_iff_eq] at hkey
  refine ⟨name, hmodule, hkey, rfl, fun n hn hnkey => ?_⟩
  -- A lesser name would stand in front, where there is no module of the normal name.
  have hsorted := pairwise_listed w directory
  rw [hsplit] at hsorted
  have hmem := mem_listed_iff.mpr hn.listed
  rw [hsplit] at hmem
  rcases List.mem_append.mp hmem with hmem | hmem
  · have hnot := hbefore n hmem
    rw [(moduleAt_eq_some_iff hn.listed).mpr ⟨hn, rfl⟩, Option.any_some, key_moduleFile, hnkey] at hnot
    simp at hnot
  · rcases List.mem_cons.mp hmem with rfl | hmem
    · exact le_refl n
    · exact List.rel_of_pairwise_cons (List.pairwise_append.mp hsorted).2.1 hmem

/-- **The module under a normal name** is the one that counts. -/
theorem isFirst_of_get? {k : String} {file : Path} (h : (indexOf w.foundFiles).get? k = some file) :
    ∃ d n, w.IsFirst k d n ∧ file = moduleFile d n := by
  rw [get?_indexOf, foundFiles, List.find?_flatMap] at h
  obtain ⟨before, d, after, hsplit, hd, hbefore⟩ := List.findSome?_eq_some_iff.mp h
  obtain ⟨n, hmodule, hkey, hfile, hleast⟩ := exists_least_of_find? hd
  refine ⟨d, n, ⟨hmodule, hkey, ⟨before, after, hsplit, fun d' hd' n' hn' hkey' => ?_⟩, hleast⟩, hfile⟩
  have hnone := List.find?_eq_none.mp (hbefore d' hd') _ (mem_filterMap_moduleAt.mpr ⟨n', hn', rfl⟩)
  rw [key_moduleFile, hkey'] at hnone
  simp at hnone

/-- **The normal names that are found** are those of the modules. -/
theorem mem_keys_indexOf_foundFiles {k : String} : k ∈ (indexOf w.foundFiles).keys ↔
    ∃ d ∈ w.loader.directories, ∃ n, w.IsModule d n ∧ normalName n = k := by
  constructor
  · intro hk
    obtain ⟨file, hfile⟩ := Table.mem_keys_iff.mp hk
    obtain ⟨d, n, hfirst, -⟩ := isFirst_of_get? hfile
    obtain ⟨before, after, hsplit, -⟩ := hfirst.earliest
    refine ⟨d, ?_, n, hfirst.isModule, hfirst.key⟩
    rw [hsplit]
    exact List.mem_append_right _ List.mem_cons_self
  · rintro ⟨d, hd, n, hmodule, hkey⟩
    rw [Table.mem_keys_iff, get?_indexOf, ← Option.isSome_iff_exists, List.find?_isSome]
    refine ⟨moduleFile d n, List.mem_flatMap.mpr ⟨d, hd, mem_filterMap_moduleAt.mpr ⟨n, hmodule, rfl⟩⟩, ?_⟩
    rw [key_moduleFile, hkey]
    exact beq_self_eq_true k

end World

namespace Loader

variable {w : World}

/-- What comes of the search. -/
theorem yields_available (w : World) : w.Yields (∀ d ∈ w.loader.directories, w.Searchable d)
    (w.outcome available) ((World.indexOf w.foundFiles).keys.mergeSort fun a b => decide (a ≤ b)) := by
  have hindex : w.outcome index = w.modules := (steadily_index w (World.LoadsAlike.refl w)).1
  have havailable : w.outcome available
      = (w.outcome index).map fun t => t.keys.mergeSort fun a b => decide (a ≤ b) :=
    World.outcome_bind_pure _ _ w
  rw [havailable, hindex]
  exact w.yields_modules.map _

/-- One module is imported once. -/
theorem Imports.eq_singleton {f : String × Path} {is : List Import} {r : Except Fault Unit} {w' : World}
    (h : Imports w [f] is r w') : ∃ i, is = [i] ∧ f = (i.key, i.file) := by
  cases h with
  | completed first hnone rest =>
    cases rest with
    | done last => exact ⟨_, rfl, rfl⟩
  | escaped first hsome => exact ⟨_, rfl, rfl⟩

/-- A call that is to import one module imports it. -/
theorem Call.imports_of_due {c : Call} {f : String × Path} (hdue : c.due w = .ok [f]) :
    ∃ i : Import, f = (i.key, i.file) ∧
      Imports w [f] [i] (w.outcome c.perform) (w.after c.perform) := by
  cases c.ends w with
  | serves due nodup unmarked h =>
    rw [hdue] at due
    cases due
    obtain ⟨is, himports⟩ := h
    obtain ⟨i, rfl, hf⟩ := himports.eq_singleton
    rw [map_unit] at himports
    exact ⟨i, hf, himports⟩
  | unsearchable due hrun h =>
    rw [hdue] at due
    cases due

/-- The search gives each name once. -/
theorem nodup_keys_of_outcome {t : Table String Path} (h : w.outcome index = .ok t) : t.keys.Nodup := by
  obtain ⟨v, hrun⟩ := World.exists_run_of_outcome h
  exact nodup_index hrun

/-- The first load of a name that is found imports the module that counts. -/
theorem imports_first {name : String} (hindex : w.outcome index = .ok (World.indexOf w.foundFiles))
    (hname : normalName name ∈ (World.indexOf w.foundFiles).keys)
    (hnew : normalName name ∉ w.loader.attempted) :
    ∃ d n i, w.IsFirst (normalName name) d n ∧ i.key = normalName name ∧
      i.file = World.moduleFile d n ∧
      Imports w [(i.key, i.file)] [i] (w.outcome (load name)) (w.after (load name)) := by
  obtain ⟨file, hfile⟩ := Table.mem_keys_iff.mp hname
  obtain ⟨d, n, hfirst, hmodule⟩ := World.isFirst_of_get? hfile
  have hdue : (Call.load name).due w = .ok [(normalName name, file)] := by
    rw [Call.due, if_neg hnew, Call.asked, hindex]
    show Except.ok (((World.indexOf w.foundFiles).get? (normalName name)).toList.map _) = _
    rw [hfile]
    rfl
  obtain ⟨i, hi, himports⟩ := Call.imports_of_due hdue
  obtain ⟨hkey, hfile⟩ := Prod.mk.inj hi
  rw [hi] at himports
  exact ⟨d, n, i, hfirst, hkey.symm, hfile.symm.trans hmodule, himports⟩

/-- **The modules that count are available and loaded.** The names of the modules that can be found are
given exactly if no path that the search asks about is too long. They are strictly ascending, and they are
the normal names of the modules in the search directories. The first load of any spelling of such a name
imports just one module: that in the earliest directory that has one of this normal name, and of those in
this directory the one with the least name. -/
theorem modules_that_count (w : World) :
    ((∃ names, w.outcome available = .ok names) ↔ ∀ d ∈ w.loader.directories, w.Searchable d) ∧
    ∀ names, w.outcome available = .ok names →
      names.Pairwise (· < ·) ∧
      (∀ k, k ∈ names ↔ ∃ d ∈ w.loader.directories, ∃ n, w.IsModule d n ∧ normalName n = k) ∧
      ∀ name, normalName name ∈ names → normalName name ∉ w.loader.attempted →
        ∃ d n i, w.IsFirst (normalName name) d n ∧ i.key = normalName name ∧
          i.file = World.moduleFile d n ∧
          Imports w [(i.key, i.file)] [i] (w.outcome (load name)) (w.after (load name)) := by
  have hindex : w.outcome index = w.modules := (steadily_index w (World.LoadsAlike.refl w)).1
  obtain ⟨hall, hgiven⟩ | ⟨hnot, path, -, hgiven⟩ := yields_available w
  · refine ⟨⟨fun _ => hall, fun _ => ⟨_, hgiven⟩⟩, fun names hnames => ?_⟩
    rw [hgiven] at hnames
    cases hnames
    obtain ⟨-, hmodules⟩ | ⟨hnot, -⟩ := w.yields_modules
    · rw [hmodules] at hindex
      refine ⟨?_, fun k => ?_, fun name hname hnew => ?_⟩
      · have hnodup := (List.mergeSort_perm _ fun a b => decide (a ≤ b)).nodup_iff.mpr
          (nodup_keys_of_outcome hindex)
        exact ((pairwise_mergeSort_le _).and hnodup).imp fun hlt => lt_of_le_of_ne hlt.1 hlt.2
      · rw [List.mem_mergeSort, World.mem_keys_indexOf_foundFiles]
      · exact imports_first hindex (List.mem_mergeSort.mp hname) hnew
    · exact absurd hall hnot
  · refine ⟨⟨fun hnames => ?_, fun hall => absurd hall hnot⟩, fun names hnames => ?_⟩
    · obtain ⟨names, hnames⟩ := hnames
      rw [hgiven] at hnames
      cases hnames
    · rw [hgiven] at hnames
      cases hnames

/-! ## A directory that shadows another -/

section

open FileTree World

/-- A tree of two directories, each with one module; the modules have one normal name. -/
def shadowTree : FileTree :=
  ⟨⟨[(["u"], .directory), (["u", "my-cmd"], .directory),
    (["u", "my-cmd", "__init__.py"], .file (.bytes [])),
    (["b"], .directory), (["b", "my_cmd"], .directory),
    (["b", "my_cmd", "__init__.py"], .file (.bytes []))]⟩⟩

/-- A world in which these directories are searched. -/
def shadowWorld : World :=
  { (default : World) with
    files := shadowTree
    loader := .ofDirectories [⟨"/", ["u"]⟩, ⟨"/", ["b"]⟩] default }

/-- The names in the two directories are names that a walk looks up. -/
theorem isName_shadow {c : String} (hc : c ∈ ["u", "b", "my-cmd", "my_cmd", "__init__.py"]) :
    IsName c := by
  revert c
  unfold IsName
  decide

/-- Each of the two directories leads to its module and the file of it. -/
theorem leads_shadow {d n : String} (h : (d, n) ∈ [("u", "my-cmd"), ("b", "my_cmd")]) :
    Leads shadowTree .followed maxLinks [] ["", d] (.found [d] .directory) ∧
    Leads shadowTree .followed maxLinks [] ["", d, n] (.found [d, n] .directory) ∧
    Leads shadowTree .followed maxLinks [] ["", d, n, "__init__.py"]
      (.found [d, n, "__init__.py"] (.file (.bytes []))) := by
  have hdirectory {c : String} {place : Location} {cs : List String} {l : Destination} (hc : IsName c)
      (hnode : shadowTree.node? (place ++ [c]) = some .directory)
      (h : Leads shadowTree .followed maxLinks (place ++ [c]) cs l) :
      Leads shadowTree .followed maxLinks place (c :: cs) l := .enter hc hnode (by simp) h
  have hinitial := isName_shadow (c := "__init__.py") (by simp)
  simp only [List.mem_cons, Prod.mk.injEq, List.not_mem_nil, or_false] at h
  rcases h with ⟨rfl, rfl⟩ | ⟨rfl, rfl⟩
  · have hd := isName_shadow (c := "u") (by simp)
    have hn := isName_shadow (c := "my-cmd") (by simp)
    exact ⟨.skip (.inl rfl) (hdirectory hd rfl .here),
      .skip (.inl rfl) (hdirectory hd rfl (hdirectory hn rfl .here)),
      .skip (.inl rfl) (hdirectory hd rfl (hdirectory hn rfl (.file hinitial rfl)))⟩
  · have hd := isName_shadow (c := "b") (by simp)
    have hn := isName_shadow (c := "my_cmd") (by simp)
    exact ⟨.skip (.inl rfl) (hdirectory hd rfl .here),
      .skip (.inl rfl) (hdirectory hd rfl (hdirectory hn rfl .here)),
      .skip (.inl rfl) (hdirectory hd rfl (hdirectory hn rfl (.file hinitial rfl)))⟩

/-- In each of the directories stands one name. -/
theorem eq_of_node?_shadow {d n m : String} {node : Node}
    (h : (d, n) ∈ [("u", "my-cmd"), ("b", "my_cmd")])
    (hm : shadowTree.node? ([d] ++ [m]) = some node) : m = n := by
  have hmem := Table.mem_of_get? (t := shadowTree.nodes) (k := [d, m]) (v := node) hm
  simp only [List.mem_cons, Prod.mk.injEq, List.not_mem_nil, or_false] at h
  rcases h with ⟨rfl, rfl⟩ | ⟨rfl, rfl⟩
  · simp only [shadowTree, List.mem_cons, Prod.mk.injEq, List.cons.injEq] at hmem
    simp_all
  · simp only [shadowTree, List.mem_cons, Prod.mk.injEq, List.cons.injEq] at hmem
    simp_all

/-- Each of the two directories can be searched and has its one module. -/
theorem isModule_shadow {d n : String} (h : (d, n) ∈ [("u", "my-cmd"), ("b", "my_cmd")]) :
    shadowWorld.Searchable ⟨"/", [RawText.ofString d]⟩ ∧
      ∀ m, shadowWorld.IsModule ⟨"/", [RawText.ofString d]⟩ m ↔ m = n := by
  have hresolve {s : String} {l : Location} {node : Node}
      (hshort : s ≠ "" ∧ s.utf8ByteSize < pathLimit ∧ Path.rootOf s ≠ "")
      (h : Leads shadowTree .followed maxLinks [] (Path.components s) (.found l node)) :
      shadowWorld.files.resolve shadowWorld.cwd .followed s = .ok (.found l node) :=
    resolve_of_leads hshort.1 hshort.2.1 hshort.2.2 h _
  have honly (m : String) (node : Node) (hm : shadowWorld.files.node? ([d] ++ [m]) = some node) :
      m = n := eq_of_node?_shadow h hm
  obtain ⟨hd, hn, hfile⟩ := leads_shadow h
  simp only [List.mem_cons, Prod.mk.injEq, List.not_mem_nil, or_false] at h
  rcases h with ⟨rfl, rfl⟩ | ⟨rfl, rfl⟩
  · have hdirectory := hresolve (s := "/u") (by decide) hd
    have hentry := hresolve (s := "/u/my-cmd") (by decide) hn
    have hinitial := hresolve (s := "/u/my-cmd/__init__.py") (by decide) hfile
    exact isModule_of_only rfl hdirectory rfl honly (node?_of_resolve rfl hentry) (by decide)
      (node?_of_resolve rfl hinitial)
  · have hdirectory := hresolve (s := "/b") (by decide) hd
    have hentry := hresolve (s := "/b/my_cmd") (by decide) hn
    have hinitial := hresolve (s := "/b/my_cmd/__init__.py") (by decide) hfile
    exact isModule_of_only rfl hdirectory rfl honly (node?_of_resolve rfl hentry) (by decide)
      (node?_of_resolve rfl hinitial)

/-- The module in the first directory counts, although it is spelled otherwise than the one it shadows. -/
theorem modules_that_count_shadow :
    shadowWorld.outcome available = .ok ["my_cmd"] ∧
      ∃ i : Import, i.key = "my_cmd" ∧ i.file = moduleFile ⟨"/", ["u"]⟩ "my-cmd" ∧
        Imports shadowWorld [(i.key, i.file)] [i] (shadowWorld.outcome (load "my_cmd"))
          (shadowWorld.after (load "my_cmd")) := by
  obtain ⟨hiff, hnames⟩ := modules_that_count shadowWorld
  have hu := isModule_shadow (d := "u") (n := "my-cmd") (by simp)
  have hb := isModule_shadow (d := "b") (n := "my_cmd") (by simp)
  have hsearch : ∀ d ∈ shadowWorld.loader.directories, shadowWorld.Searchable d :=
    List.forall_mem_cons.mpr ⟨hu.1, List.forall_mem_singleton.mpr hb.1⟩
  obtain ⟨names, havailable⟩ := hiff.mpr hsearch
  obtain ⟨hascending, hmem, hload⟩ := hnames names havailable
  have hkey : normalName "my-cmd" = "my_cmd" := by decide
  have hmine : shadowWorld.IsModule ⟨"/", ["u"]⟩ "my-cmd" := (hu.2 _).mpr rfl
  have hone : ∀ k, k ∈ names ↔ k = "my_cmd" := by
    intro k
    rw [hmem]
    constructor
    · rintro ⟨d, hd, n, hmodule, rfl⟩
      rcases List.mem_pair.mp hd with rfl | rfl
      · rw [(hu.2 n).mp hmodule, hkey]
      · rw [(hb.2 n).mp hmodule]
        rfl
    · rintro rfl
      exact ⟨_, List.mem_cons_self, "my-cmd", hmine, hkey⟩
  have hmy : "my_cmd" ∈ names := (hone _).mpr rfl
  have hsingle : names = ["my_cmd"] :=
    List.perm_singleton.mp ((List.perm_ext_iff_of_nodup (hascending.imp ne_of_lt)
      (List.nodup_singleton _)).mpr fun k => (hone k).trans List.mem_singleton.symm)
  refine ⟨hsingle ▸ havailable, ?_⟩
  obtain ⟨d, n, i, hfirst, hi, hfile, himports⟩ := hload "my_cmd" hmy List.not_mem_nil
  refine ⟨i, hi, ?_, himports⟩
  -- The second directory is not the earliest one that has the module.
  obtain ⟨before, after, hsplit, hbefore⟩ := hfirst.earliest
  cases before with
  | nil =>
    obtain rfl : (⟨"/", ["u"]⟩ : Path) = d := (List.cons.inj hsplit).1
    rw [hfile, (hu.2 n).mp hfirst.isModule]
  | cons e before =>
    obtain rfl : (⟨"/", ["u"]⟩ : Path) = e := (List.cons.inj hsplit).1
    exact absurd hkey (hbefore _ List.mem_cons_self _ hmine)

/-! ## A directory that cannot be searched -/

/-- A name of so many bytes. -/
def longName (n : Nat) : String := String.ofList (List.replicate n 'n')

/-- A long name has as many bytes as it was made with. -/
theorem utf8ByteSize_longName (n : Nat) : (longName n).utf8ByteSize = n := by
  unfold longName
  induction n with
  | zero => rfl
  | succ n ih =>
    have hone : (String.singleton 'n').utf8ByteSize = 1 := by decide
    rw [List.replicate_succ, String.ofList_cons, String.utf8ByteSize_append, ih, hone, Nat.add_comm]

/-- The world, but in front of the directory with the module another one is searched, which is not there
and has a name of so many bytes. -/
def longWorld (n : Nat) : World :=
  { shadowWorld with
    loader := .ofDirectories [⟨"/", [RawText.ofString (longName n)]⟩, ⟨"/", ["u"]⟩] default }

/-- The module behind the long directory is one all the same. -/
theorem isModule_longWorld (n : Nat) : (longWorld n).IsModule ⟨"/", ["u"]⟩ "my-cmd" := by
  have hmodule : shadowWorld.IsModule ⟨"/", ["u"]⟩ "my-cmd" :=
    ((isModule_shadow (d := "u") (n := "my-cmd") (by simp)).2 _).mpr rfl
  exact ⟨hmodule.listed, hmodule.isDirectory, hmodule.visible, hmodule.initial⟩

/-- No file can have too long a name. -/
theorem tooLong_longName {n : Nat} (h : maxName < n) (w : World) :
    w.TooLong ⟨"/", [RawText.ofString (longName n)]⟩ := by
  have hplain {c : Char} (hc : c ≠ 'n') : c ∉ (longName n).toList := by
    unfold longName
    rw [String.toList_ofList, List.mem_replicate]
    exact fun h => hc h.2
  refine tooLong_of_name (hplain (by decide)) (hplain (by decide)) ?_
  rwa [utf8ByteSize_longName]

/-- With a directory of too long a name no modules are listed. -/
theorem not_available_longWorld {n : Nat} (h : maxName < n) :
    ¬ ∃ names, (longWorld n).outcome available = .ok names := by
  rintro ⟨names, hnames⟩
  obtain ⟨hall, -⟩ | ⟨-, path, -, hgiven⟩ := yields_available (longWorld n)
  · exact (hall _ List.mem_cons_self).itself (tooLong_longName h _)
  · rw [hgiven] at hnames
    cases hnames

/-- A missing directory with too long a name keeps a module in another directory from being given. -/
theorem not_available_of_long_name :
    (longWorld 256).loader.directories
        = [⟨"/", [RawText.ofString (longName 256)]⟩, ⟨"/", ["u"]⟩] ∧
      (longWorld 256).node? ⟨"/", [RawText.ofString (longName 256)]⟩ = none ∧
      (longWorld 256).IsModule ⟨"/", ["u"]⟩ "my-cmd" ∧
      ¬ ∃ names, (longWorld 256).outcome available = .ok names :=
  ⟨rfl, node?_of_tooLong (tooLong_longName (by decide) _), isModule_longWorld 256,
    not_available_longWorld (by decide)⟩

end

end Loader

end CommandShell
