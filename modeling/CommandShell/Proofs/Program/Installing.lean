import CommandShell.Proofs.Files.Inside
import CommandShell.Proofs.Loader.Discovery
import CommandShell.Proofs.Program.Linking

/-! # Installing the modules that come with the shell

Installing makes links of modules in a directory. Where the directory and the modules stand apart
(`World.Apart`), each module is linked whose name is free, or every module if what is there is replaced, and
nothing else is changed (`World.Installed`). From then on every name is taken, so installing again makes no
link. It may stop, though, since it is not always told where a link leads that was kept
(`Program.Setup.installed_of_installBuiltins`). -/

namespace CommandShell

/-- A tree is **proper** if no location stands in it twice, and its names are those of entries. -/
structure FileTree.IsProper (t : FileTree) : Prop where
  /-- No location stands there twice. -/
  nodup : t.nodes.keys.Nodup
  /-- The names are those of entries. -/
  entryName : ∀ l ∈ t.nodes.keys, ∀ n ∈ l, FileTree.IsEntryName n

namespace FileTree

variable {t : FileTree} {l : Location} {n : String}

/-- What stands in a directory of a proper tree has the name of an entry. -/
theorem IsProper.isEntryName (h : t.IsProper) (hn : n ∈ t.names l) : IsEntryName n := by
  obtain ⟨node, hnode⟩ := mem_names_iff.mp hn
  rw [node?, if_neg (by simp)] at hnode
  exact h.entryName _ (Table.mem_keys_iff.mpr ⟨node, hnode⟩) n (by simp)

/-- The names in a directory are strictly ascending. -/
theorem IsProper.pairwise_names (h : t.IsProper) (l : Location) : (t.names l).Pairwise (· < ·) := by
  refine pairwise_mergeSort_by_lt id ?_
  rw [List.map_id]
  refine h.nodup.filterMap fun l₁ l₂ n h₁ h₂ => ?_
  -- A name stands for the location of the entry.
  have hlocation {l' : Location} (hl : n ∈ if l'.dropLast = l then l'.getLast? else none) :
      l' = l ++ [n] := by
    split at hl
    · rename_i hdrop
      rw [← hdrop, List.dropLast_append_getLast? n hl]
    · cases hl
  rw [hlocation h₁, hlocation h₂]

end FileTree

namespace World

variable {u v w w' : World} {directory path : Path} {l b place : Location} {n target : String}
  {names : List String}

/-! ## Directories that paths lead to -/

/-- A path that leads to a directory finds it. -/
theorem LeadsTo.find (h : w.LeadsTo path l) : ∃ name, Files.fileName path.text = .ok name ∧
    w.files.find w.cwd name = .ok .directory := by
  obtain ⟨name, hname, hl⟩ := h
  refine ⟨name, hname, ?_⟩
  rw [FileTree.find, hl]

/-- They are made again without a change. -/
theorem LeadsTo.run_makeDirectories (h : w.LeadsTo path l) :
    (Files.makeDirectories path).run w = .ok () w := by
  obtain ⟨name, hname, hfind⟩ := h.find
  exact Files.run_makeDirectories_of_find hname hfind

/-- They list the names in them. -/
theorem LeadsTo.run_list (h : w.LeadsTo path l) :
    (Files.list path).run w = .ok ((w.files.names l).map path.entry) w := by
  obtain ⟨name, hname, hl⟩ := h
  have hlisting : w.files.listing w.cwd name = .ok (w.files.names l) := by
    rw [FileTree.listing, FileTree.directory_of_resolve hl (.inl ⟨l, rfl, rfl⟩)]
    rfl
  exact Files.run_list hname hlisting

/-! ## What stands outside a directory -/

/-- Two worlds are the same outside the directory at a location. -/
structure SameOutside (l : Location) (w u : World) : Prop where
  /-- Beside what is in the directory the same nodes stand there. -/
  node : ∀ p, ¬(l <+: p ∧ p ≠ l) → u.files.node? p = w.files.node? p
  /-- The modules that come with the shell are in the same directory. -/
  builtinsDir : u.builtinsDir = w.builtinsDir

/-- A world is itself outside any directory. -/
theorem SameOutside.refl (l : Location) (w : World) : w.SameOutside l w := ⟨fun _ _ => rfl, rfl⟩

/-- What is the same twice is the same. -/
theorem SameOutside.trans (h : u.SameOutside l v) (h' : v.SameOutside l w) : u.SameOutside l w :=
  ⟨fun p hp => (h'.node p hp).trans (h.node p hp), h'.builtinsDir.trans h.builtinsDir⟩

/-- What is in another directory stands outside. -/
theorem SameOutside.node_of_apart (h : w.SameOutside l u) (habove : ¬l <+: b) (hbelow : ¬b <+: l)
    (n : String) : u.files.node? (b ++ [n]) = w.files.node? (b ++ [n]) := by
  refine h.node _ ?_
  rintro ⟨hstart, -⟩
  obtain rfl | hstart := List.prefix_concat_iff.mp hstart
  · exact hbelow (List.prefix_append _ _)
  · exact habove hstart

/-- **A directory stands apart** from the modules that come with the shell: neither lies in the other, and
what is in the directory has no part in where the modules are found. -/
structure Apart (directory : Path) (l b : Location) (w : World) : Prop where
  /-- The path leads to the directory. -/
  leads : w.LeadsTo directory l
  /-- The path of the modules is absolute. -/
  rooted : w.builtinsDir.IsRooted
  /-- It leads to the modules, whatever is in the directory. -/
  builtins : ∀ u, w.SameOutside l u → u.LeadsTo w.builtinsDir b
  /-- The same ones of them are modules, whatever is in the directory. -/
  modules : ∀ u, w.SameOutside l u → ∀ n ∈ w.files.names b,
    u.outcome (Program.Setup.isModule (w.builtinsDir.entry n))
      = w.outcome (Program.Setup.isModule (w.builtinsDir.entry n))
  /-- The modules are not in the directory. -/
  not_above : ¬l <+: b
  /-- The directory is not in theirs. -/
  not_below : ¬b <+: l

/-- **Modules that are no links** stand apart from a directory that is not among them, if their path leads to
them in a tree without what is in the directory. -/
theorem apart_of_plain {base : FileTree} {name : String} (hleads : w.LeadsTo directory l)
    (hrooted : w.builtinsDir.IsRooted) (hproper : w.builtinsDir.IsProper)
    (hname : Files.fileName w.builtinsDir.text = .ok name)
    (hresolve : base.resolve default .followed name = .ok (.found b .directory))
    (hbelow : base.Below w.files) (hbare : ∀ p, l <+: p → p ≠ l → base.node? p = none)
    (hentry : ∀ n ∈ w.files.names b, FileTree.IsEntryName n)
    (hplain : ∀ n target, w.files.node? (b ++ [n]) ≠ some (.link target))
    (habove : ¬l <+: b) (hbelow' : ¬b <+: l) : w.Apart directory l b := by
  have hbuiltins (u : World) (hu : w.SameOutside l u) : u.LeadsTo w.builtinsDir b := by
    refine ⟨name, hname, ?_⟩
    rw [FileTree.resolve_cwd (hrooted.rootOf_name hname) u.files u.cwd default]
    refine FileTree.resolve_of_below hresolve (fun p node hp => ?_) trivial
    rw [hu.node p, hbelow p node hp]
    rintro ⟨hl, hne⟩
    rw [hbare p hl hne] at hp
    cases hp
  refine ⟨hleads, hrooted, hbuiltins, fun u hu n hn => ?_, habove, hbelow'⟩
  obtain ⟨node, hnode⟩ := FileTree.mem_names_iff.mp hn
  have hlink : ∀ target, node ≠ .link target := by
    rintro target rfl
    exact hplain n target hnode
  -- What is told about a module is told by its node.
  have houtcome {u : World} (hu : w.SameOutside l u) :=
    (hbuiltins u hu).outcome_isDirectory hproper (hentry n hn)
      ((hu.node_of_apart habove hbelow' n).trans hnode) hlink
  have hsource : w.builtinsDir.child n = w.builtinsDir.entry n := Path.child_of_isEntryName (hentry n hn) _
  rw [Program.Setup.outcome_isModule, Program.Setup.outcome_isModule, ← hsource, houtcome hu,
    houtcome (.refl l w)]

/-- Each of the modules is one, whatever is in the directory. -/
theorem Apart.run_isModule_iff (h : w.Apart directory l b) (hu : w.SameOutside l u)
    (hn : n ∈ w.files.names b) {answer : Bool} :
    (Program.Setup.isModule (w.builtinsDir.entry n)).run u = .ok answer u ↔
      (Program.Setup.isModule (w.builtinsDir.entry n)).run w = .ok answer w := by
  rw [Program.Setup.run_isModule_eq_ok_iff, Program.Setup.run_isModule_eq_ok_iff, h.modules u hu n hn]

/-- Of the names that are listed those are of modules. -/
theorem Apart.hasBuiltin_iff (h : w.Apart directory l b) : w.HasBuiltin (w.builtinsDir.entry n) ↔
    n ∈ w.files.names b ∧
      (Program.Setup.isModule (w.builtinsDir.entry n)).run w = .ok true w := by
  have hlist := (h.builtins w (.refl l w)).run_list
  have hentry {m : String} (hm : w.builtinsDir.entry m = w.builtinsDir.entry n) : m = n := by
    rw [← Path.name_entry w.builtinsDir m, hm, Path.name_entry]
  constructor
  · rintro ⟨⟨sources, hsources, hmem⟩, hmodule⟩
    cases hlist.symm.trans hsources
    obtain ⟨m, hm, heq⟩ := List.mem_map.mp hmem
    exact ⟨hentry heq ▸ hm, hmodule⟩
  · rintro ⟨hmem, hmodule⟩
    exact ⟨⟨_, hlist, List.mem_map_of_mem hmem⟩, hmodule⟩

/-- The names of the modules are the same, whatever is in the directory. -/
theorem Apart.mem_names_iff (h : w.Apart directory l b) (hu : w.SameOutside l u) :
    n ∈ u.files.names b ↔ n ∈ w.files.names b := by
  rw [FileTree.mem_names_iff, FileTree.mem_names_iff, hu.node_of_apart h.not_above h.not_below]

/-! ## Links that are made -/

/-- Links of modules were made in the directory at a location, and nothing else was changed. -/
structure Installed (l : Location) (names : List String) (w w' : World) : Prop where
  /-- The links are there. -/
  link : ∀ n ∈ names, ∃ target, Files.fileName (w.builtinsDir.entry n).text = .ok target ∧
    w'.files.node? (l ++ [n]) = some (.link target)
  /-- All other nodes are the same. -/
  node : ∀ p, (∀ n ∈ names, ¬l ++ [n] <+: p) → w'.files.node? p = w.files.node? p
  /-- The rest is the same. -/
  rest : ∃ files cwd, w' = { w with files, cwd }

/-- Installing leaves the directory of the modules that come with the shell. -/
theorem Installed.builtinsDir (h : w.Installed l names w') : w'.builtinsDir = w.builtinsDir := by
  obtain ⟨_, _, rfl⟩ := h.rest
  rfl

/-- Linking leaves the directory of the modules that come with the shell. -/
theorem Linked.builtinsDir (h : w.Linked place target w') : w'.builtinsDir = w.builtinsDir := by
  obtain ⟨_, _, rfl⟩ := h.rest
  rfl

/-- What is at an entry or below it is in the directory. -/
theorem inside_of_entry {p : Location} (h : l ++ [n] <+: p) : l <+: p ∧ p ≠ l := by
  refine ⟨(List.prefix_append _ _).trans h, ?_⟩
  rintro rfl
  have hlength := h.length_le
  simp at hlength

/-- A link in a directory leaves everything outside of it. -/
theorem Linked.sameOutside (h : w.Linked (l ++ [n]) target w') : w.SameOutside l w' where
  node p hp := h.node p fun hentry => hp (inside_of_entry hentry)
  builtinsDir := h.builtinsDir

/-- What is installed in a directory leaves everything outside of it. -/
theorem Installed.sameOutside (h : w.Installed l names w') : w.SameOutside l w' where
  node p hp := h.node p fun _ _ hentry => hp (inside_of_entry hentry)
  builtinsDir := h.builtinsDir

/-- Other entries of the directory are the same. -/
theorem Installed.node_of_not_mem (h : w.Installed l names w') (hn : n ∉ names) :
    w'.files.node? (l ++ [n]) = w.files.node? (l ++ [n]) :=
  h.node _ fun m hm => FileTree.not_prefix_of_ne (fun heq : m = n => hn (heq ▸ hm)) l

/-- Installing no modules installs nothing. -/
theorem Installed.nil (l : Location) (w : World) : w.Installed l [] w :=
  ⟨fun _ h => absurd h List.not_mem_nil, fun _ _ => rfl, w.files, w.cwd, rfl⟩

/-- One more link. -/
theorem Installed.cons (hlinked : w.Linked (l ++ [n]) target u)
    (htarget : Files.fileName (w.builtinsDir.entry n).text = .ok target) (h : u.Installed l names w')
    (hn : n ∉ names) : w.Installed l (n :: names) w' where
  link := by
    refine List.forall_mem_cons.mpr ⟨⟨target, htarget, ?_⟩, ?_⟩
    · rw [h.node_of_not_mem hn]
      exact hlinked.link
    · rw [← hlinked.builtinsDir]
      exact h.link
  node p hp := by
    obtain ⟨hfirst, hrest⟩ := List.forall_mem_cons.mp hp
    exact (h.node p hrest).trans (hlinked.node p hfirst)
  rest := by
    obtain ⟨_, _, rfl⟩ := hlinked.rest
    obtain ⟨files, cwd, rfl⟩ := h.rest
    exact ⟨files, cwd, rfl⟩

end World

namespace Program.Setup

open World Shell

variable {u v w w' : World} {directory : Path} {l b : Location} {names : List String} {force : Bool}
  {linked : List String} {n : String}

/-- What is listed for a link. -/
def describe (directory builtinsDir : Path) (n : String) : String :=
  (directory.child n).toString ++ " -> " ++ (builtinsDir.entry n).toString

/-- A name is **claimed** if it fits behind the path of the directory and something stands there. -/
def Claimed (directory : Path) (l : Location) (n : String) (w : World) : Prop :=
  (directory.child n).Fits ∧ ∃ node, w.files.node? (l ++ [n]) = some node

/-- Of the names of a list, links were made of some: of those of modules that are free, or of all modules if
what is there is replaced. What is a module is told by a world of its own. -/
structure Links (directory : Path) (l : Location) (force : Bool) (v : World) (names made : List String)
    (w w' : World) : Prop where
  /-- The links are made in the order of the list. -/
  sublist : made.Sublist names
  /-- They are all that is changed. -/
  installed : w.Installed l made w'
  /-- The path leads to the directory still. -/
  leads : w'.LeadsTo directory l
  /-- Of which names links are made. -/
  mem_made : ∀ n ∈ names, n ∈ made ↔ (isModule (v.builtinsDir.entry n)).run v = .ok true v ∧
    (force = true ∨ w.files.node? (l ++ [n]) = none)
  /-- There is something under the name of every module now. -/
  claimed : ∀ n ∈ names, (isModule (v.builtinsDir.entry n)).run v = .ok false v ∨
    (isModule (v.builtinsDir.entry n)).run v = .ok true v ∧ Claimed directory l n w'

section

variable {made : List String}

/-- No modules are linked without a step. -/
theorem Links.nil (h : w.LeadsTo directory l) : Links directory l force v [] [] w w :=
  ⟨.refl _, .nil l w, h, by simp, by simp⟩

/-- A name is passed over. -/
theorem Links.pass (h : Links directory l force v names made w w') (hn : n ∉ names)
    (hpass : ¬((isModule (v.builtinsDir.entry n)).run v = .ok true v ∧
      (force = true ∨ w.files.node? (l ++ [n]) = none)))
    (hclaimed : (isModule (v.builtinsDir.entry n)).run v = .ok false v ∨
      (isModule (v.builtinsDir.entry n)).run v = .ok true v ∧ Claimed directory l n w) :
    Links directory l force v (n :: names) made w w' := by
  have hmade : n ∉ made := fun hmem => hn (h.sublist.subset hmem)
  refine ⟨h.sublist.cons n, h.installed, h.leads,
    List.forall_mem_cons.mpr ⟨iff_of_false hmade hpass, h.mem_made⟩,
    List.forall_mem_cons.mpr ⟨?_, h.claimed⟩⟩
  rwa [Claimed, h.installed.node_of_not_mem hmade]

/-- A link is made of a name. -/
theorem Links.make {target : String} (h : Links directory l force v names made u w') (hn : n ∉ names)
    (hmodule : (isModule (v.builtinsDir.entry n)).run v = .ok true v)
    (hfree : force = true ∨ w.files.node? (l ++ [n]) = none) (hfits : (directory.child n).Fits)
    (htarget : Files.fileName (w.builtinsDir.entry n).text = .ok target)
    (hlinked : w.Linked (l ++ [n]) target u) : Links directory l force v (n :: names) (n :: made) w w' := by
  have hmade : n ∉ made := fun hmem => hn (h.sublist.subset hmem)
  have hinstalled := Installed.cons hlinked htarget h.installed hmade
  refine ⟨h.sublist.cons_cons n, hinstalled, h.leads, List.forall_mem_cons.mpr
    ⟨iff_of_true List.mem_cons_self ⟨hmodule, hfree⟩, fun m hm => ?_⟩, List.forall_mem_cons.mpr
    ⟨.inr ⟨hmodule, hfits, ?_⟩, h.claimed⟩⟩
  · have hne : n ≠ m := fun heq => hn (heq ▸ hm)
    rw [List.mem_cons, or_iff_right (Ne.symm hne), h.mem_made m hm,
      hlinked.node _ (FileTree.not_prefix_of_ne hne l)]
  · obtain ⟨target, -, hlink⟩ := hinstalled.link n List.mem_cons_self
    exact ⟨_, hlink⟩

/-- The paths of the links that were made are those of names that are not too long. -/
theorem Links.fits (h : Links directory l force v names made w w') (hn : n ∈ made) :
    (directory.child n).Fits := by
  have hmem := h.sublist.subset hn
  obtain hfalse | ⟨-, hfits, -⟩ := h.claimed n hmem
  · cases hfalse.symm.trans ((h.mem_made n hmem).mp hn).1
  · exact hfits

end

/-- **Linking the modules of a list** in a world that is the same outside the directory. -/
theorem links_of_linkModules (hapart : v.Apart directory l b) (hproper : directory.IsProper)
    (hentry : ∀ n ∈ names, n ∈ v.files.names b ∧ FileTree.IsEntryName n) (hnodup : names.Nodup)
    (hw : v.SameOutside l w) (hleads : w.LeadsTo directory l)
    (h : (linkModules directory force (names.map v.builtinsDir.entry)).run w = .ok linked w') :
    ∃ made, Links directory l force v names made w w' ∧
      linked = made.map (describe directory v.builtinsDir) := by
  induction names generalizing w linked with
  | nil =>
    cases h
    exact ⟨[], .nil hleads, rfl⟩
  | cons n names ih =>
    obtain ⟨⟨hmem, hn⟩, hentries⟩ := List.forall_mem_cons.mp hentry
    obtain ⟨hfresh, hnodup⟩ := List.nodup_cons.mp hnodup
    -- Whether it is a module is told by both worlds alike.
    have hanswer {answer : Bool} (h : (isModule (v.builtinsDir.entry n)).run w = .ok answer w) :
        (isModule (v.builtinsDir.entry n)).run v = .ok answer v := (hapart.run_isModule_iff hw hmem).mp h
    obtain ⟨hsource, hrest⟩ | ⟨hsource, hmodule⟩ := linkModules_cons_eq_ok h
    · obtain ⟨made, hlinks, hlinked⟩ := ih hentries hnodup hw hleads hrest
      refine ⟨made, hlinks.pass hfresh ?_ (.inl (hanswer hsource)), hlinked⟩
      rintro ⟨htrue, -⟩
      cases (hanswer hsource).symm.trans htrue
    rw [Path.name_entry] at hmodule
    obtain ⟨rfl, hkept, hrest⟩ | ⟨w₁, w₂, more, hfirst, hmake, hrest, rfl⟩ := hmodule
    · obtain ⟨made, hlinks, hlinked⟩ := ih hentries hnodup hw hleads hrest
      obtain ⟨node, hnode⟩ := hleads.node_of_hasEntry hproper hn hkept
      refine ⟨made, hlinks.pass hfresh ?_ (.inr ⟨hanswer hsource, hkept.fits, node, hnode⟩), hlinked⟩
      rintro ⟨-, hforce | hfree⟩
      · cases hforce
      · cases hnode.symm.trans hfree
    · have hfits := (Files.hasEntry_of_makeLink hmake).2.fits
      obtain ⟨target, htarget, hfree, hlinked, hleads⟩ : ∃ target,
          Files.fileName (v.builtinsDir.entry n).text = .ok target ∧
            (force = true ∨ w.files.node? (l ++ [n]) = none) ∧ w.Linked (l ++ [n]) target w₂ ∧
            w₂.LeadsTo directory l := by
        obtain rfl | ⟨hforce, hremove⟩ := hfirst
        · obtain ⟨target, htarget, hfree, hstep⟩ := hleads.linked_of_makeLink hproper hn hmake
          exact ⟨target, htarget, .inr hfree, hstep⟩
        · obtain ⟨target, htarget, hstep⟩ := hleads.linked_of_replace hproper hn hremove hmake
          exact ⟨target, htarget, .inl hforce, hstep⟩
      obtain ⟨made, hlinks, rfl⟩ := ih hentries hnodup (hw.trans hlinked.sameOutside) hleads hrest
      rw [← hw.builtinsDir] at htarget
      exact ⟨n :: made, hlinks.make hfresh (hanswer hsource) hfree hfits htarget hlinked, rfl⟩

/-! ## Installing again -/

/-- A name that is claimed is taken, unless a link of that name is followed to a name that is too long. -/
theorem isTaken_of_claimed (hleads : w.LeadsTo directory l) (hproper : directory.IsProper)
    (hn : FileTree.IsEntryName n) (h : Claimed directory l n w) :
    IsTaken w directory n ∨ ∃ target, w.files.node? (l ++ [n]) = some (.link target) ∧
      (Files.isThere (directory.child n)).run w
        = .error (.system .nameTooLong [(directory.child n).text]) w := by
  obtain ⟨hfits, node, hnode⟩ := h
  have hlink := hleads.run_isLink hproper hn hfits hnode
  cases node with
  | directory => exact .inl (.inl (hleads.run_isThere hproper hn hfits hnode fun _ => Node.noConfusion))
  | file content => exact .inl (.inl (hleads.run_isThere hproper hn hfits hnode fun _ => Node.noConfusion))
  | link target =>
    obtain ⟨there, hthere⟩ | hfault := Files.isThere_cases (directory.child n) w
    · cases there with
      | true => exact .inl (.inl hthere)
      | false => exact .inl (.inr ⟨hthere, hlink⟩)
    · exact .inr ⟨target, hnode, hfault⟩

/-- Where both directories are there already, installing only links the modules that are listed. -/
theorem run_installBuiltins (hleads : w.LeadsTo directory l) (hbuiltins : w.LeadsTo w.builtinsDir b) :
    (installBuiltins directory force).run w
      = (linkModules directory force ((w.files.names b).map w.builtinsDir.entry)).run w := by
  unfold installBuiltins
  rw [run_bind_ok hleads.run_makeDirectories, run_bind_ok (EStateM.run_get w)]
  exact run_bind_ok hbuiltins.run_list _

/-- Of a link that was made it is told whether it leads anywhere, since it leads to its module. -/
theorem Links.exists_isThere {made : List String} (h : Links directory l force v names made v w')
    (hproper : directory.IsProper) (hrooted : v.builtinsDir.IsRooted) (hn : FileTree.IsEntryName n)
    (hmade : n ∈ made) (hmodule : (isModule (v.builtinsDir.entry n)).run w' = .ok true w') :
    ∃ there, (Files.isThere (directory.child n)).run w' = .ok there w' := by
  obtain ⟨target, htarget, hlink⟩ := h.installed.link n hmade
  obtain ⟨name, hname, hfind, -⟩ := find_of_isModule hmodule
  cases hname.symm.trans htarget
  have hsource : (v.builtinsDir.entry n).IsRooted := hrooted
  exact h.leads.isThere_of_link hproper hn (h.fits hmade) hlink (hsource.rootOf_name hname) hfind

/-- **Installing again** makes no link, unless a link that was kept is followed to a name that is too long. -/
theorem run_installBuiltins_of_links {made : List String} (hapart : v.Apart directory l b)
    (hproper : directory.IsProper) (htree : v.files.IsProper)
    (h : Links directory l force v (v.files.names b) made v w') :
    (installBuiltins directory false).run w' = .ok [] w' ∨
      ∃ n target, v.HasBuiltin (v.builtinsDir.entry n) ∧ n ∉ made ∧
        w'.files.node? (l ++ [n]) = some (.link target) ∧ (installBuiltins directory false).run w'
          = .error (.system .nameTooLong [(directory.child n).text]) w' := by
  have hsame := h.installed.sameOutside
  have hbuiltins := hapart.builtins w' hsame
  rw [← hsame.builtinsDir] at hbuiltins
  rw [run_installBuiltins h.leads hbuiltins, hsame.builtinsDir]
  have hmodule {n : String} {answer : Bool} (hn : n ∈ v.files.names b)
      (hanswer : (isModule (v.builtinsDir.entry n)).run v = .ok answer v) :
      (isModule (v.builtinsDir.entry n)).run w' = .ok answer w' :=
    (hapart.run_isModule_iff hsame hn).mpr hanswer
  -- Each name is of no module, is taken, or is that of a link that is followed too far.
  have htaken : ∀ n ∈ v.files.names b, (isModule (v.builtinsDir.entry n)).run w' = .ok false w' ∨
      (isModule (v.builtinsDir.entry n)).run w' = .ok true w' ∧ (IsTaken w' directory n ∨
        ∃ target, w'.files.node? (l ++ [n]) = some (.link target) ∧
          (Files.isThere (directory.child n)).run w'
            = .error (.system .nameTooLong [(directory.child n).text]) w') := by
    intro n hn
    obtain hfalse | ⟨htrue, hclaimed⟩ := h.claimed n hn
    · exact .inl (hmodule hn hfalse)
    · exact .inr ⟨hmodule hn htrue, isTaken_of_claimed h.leads hproper (htree.isEntryName hn) hclaimed⟩
  refine (run_linkModules_of_taken fun source hsource => ?_).imp_right ?_
  · obtain ⟨n, hn, rfl⟩ := List.mem_map.mp hsource
    rw [Path.name_entry]
    refine (htaken n ((hapart.mem_names_iff hsame).mp hn)).imp_right fun ⟨hmodule, htaken⟩ => ⟨hmodule, ?_⟩
    exact htaken.imp_right fun ⟨_, _, hfault⟩ => ⟨_, hfault⟩
  · rintro ⟨source, hsource, htrue, f, hfault, hrun⟩
    obtain ⟨n, hn, rfl⟩ := List.mem_map.mp hsource
    rw [Path.name_entry] at hfault
    have hn := (hapart.mem_names_iff hsame).mp hn
    obtain hfalse | ⟨-, (hthere | ⟨hthere, -⟩) | ⟨target, hlink, hlong⟩⟩ := htaken n hn
    · cases htrue.symm.trans hfalse
    · cases hfault.symm.trans hthere
    · cases hfault.symm.trans hthere
    cases hfault.symm.trans hlong
    refine ⟨n, target, hapart.hasBuiltin_iff.mpr ⟨hn, (hapart.run_isModule_iff hsame hn).mp htrue⟩,
      fun hmade => ?_, hlink, hrun⟩
    obtain ⟨there, hthere⟩ := h.exists_isThere hproper hapart.rooted (htree.isEntryName hn) hmade htrue
    cases hlong.symm.trans hthere

/-! ## Installing -/

/-- **Installing modules.** The directory is made, if need be, and then links of modules are made in it, in
ascending order: of those whose name is free, or of all if what is there is replaced. They are all that is
changed. Installing again makes no link, unless a link that was kept is followed to a name that is too
long. -/
theorem installed_of_installBuiltins (hproper : directory.IsProper)
    (hmake : (Files.makeDirectories directory).run w = .ok () v) (hapart : v.Apart directory l b)
    (htree : v.files.IsProper) (h : (installBuiltins directory force).run w = .ok linked w') :
    w.WithDirectories v ∧ ∃ names : List String, names.Pairwise (· < ·) ∧
      linked = names.map (describe directory v.builtinsDir) ∧
      (∀ n, n ∈ names ↔ v.HasBuiltin (v.builtinsDir.entry n) ∧
        (force = true ∨ v.files.node? (l ++ [n]) = none)) ∧
      v.Installed l names w' ∧ w'.LeadsTo directory l ∧
      (∀ p, b <+: p → w'.files.node? p = v.files.node? p) ∧
      ((installBuiltins directory false).run w' = .ok [] w' ∨
        ∃ n target, v.HasBuiltin (v.builtinsDir.entry n) ∧ n ∉ names ∧
          w'.files.node? (l ++ [n]) = some (.link target) ∧ (installBuiltins directory false).run w'
            = .error (.system .nameTooLong [(directory.child n).text]) w') := by
  have hbuiltins := hapart.builtins v (.refl l v)
  have hrun : (linkModules directory force ((v.files.names b).map v.builtinsDir.entry)).run v
      = .ok linked w' := by
    rw [← run_installBuiltins hapart.leads hbuiltins, ← h]
    unfold installBuiltins
    rw [run_bind_ok hmake, run_bind_ok hapart.leads.run_makeDirectories]
  -- The modules are linked in the order in which their directory lists them.
  have hascending := htree.pairwise_names b
  obtain ⟨names, hlinks, hlinked⟩ := links_of_linkModules hapart hproper
    (fun n hn => ⟨hn, htree.isEntryName hn⟩) (hascending.imp ne_of_lt) (.refl l v) hapart.leads hrun
  refine ⟨(Files.withDirectories_makeDirectories directory).of_ok hmake, names,
    hascending.sublist hlinks.sublist, hlinked, fun n => ?_, hlinks.installed, hlinks.leads, fun p hp => ?_,
    run_installBuiltins_of_links hapart hproper htree hlinks⟩
  · rw [hapart.hasBuiltin_iff]
    constructor
    · intro hn
      have hmem := hlinks.sublist.subset hn
      obtain ⟨hmodule, hfree⟩ := (hlinks.mem_made n hmem).mp hn
      exact ⟨⟨hmem, hmodule⟩, hfree⟩
    · rintro ⟨⟨hmem, hmodule⟩, hfree⟩
      exact (hlinks.mem_made n hmem).mpr ⟨hmodule, hfree⟩
  · refine hlinks.installed.sameOutside.node p ?_
    rintro ⟨hl, -⟩
    obtain hbelow | habove := List.prefix_or_prefix_of_prefix hp hl
    · exact hapart.not_below hbelow
    · exact hapart.not_above habove

/-! ## A link that is followed too far -/

/-- A name that is too long. -/
def tooLong : String := String.ofList (List.replicate 256 'x')

/-- Two modules, and a directory with a link that leads nowhere: behind the name of a module that is not there
it names something with a name that is too long. -/
def keptFiles : FileTree :=
  ⟨⟨[(["b"], .directory), (["b", "cd"], .directory), (["b", "echo"], .directory), (["m"], .directory),
    (["m", "cd"], .link ("echo" ++ "/" ++ tooLong))]⟩⟩

/-- A world with these files. -/
def keptWorld : World :=
  { (default : World) with builtinsDir := Path.ofNames ["b"], files := keptFiles }

/-- Then the other module is linked. -/
def keptLinked : World := { keptWorld with files := keptFiles.put ["m", "echo"] (.link "/b/echo") }

section

open FileTree

/-- The long name consists of one letter over and over. -/
theorem toList_tooLong : tooLong.toList = List.replicate 256 'x' := String.toList_ofList

/-- It has one byte more than a name may have. -/
theorem size_tooLong : tooLong.utf8ByteSize = 256 := by
  decide +kernel

/-- The names in the tree are names of entries. -/
theorem isName_kept {c : String} (hc : c ∈ ["b", "cd", "echo", "m"]) : IsEntryName c := by
  simp only [List.mem_cons, List.not_mem_nil, or_false] at hc
  rcases hc with rfl | rfl | rfl | rfl
  all_goals exact ⟨⟨by decide, by decide, by decide⟩, by decide⟩

/-- The target of the dangling link goes on with the long name, from where the link stands. -/
theorem components_kept : Path.components ("echo" ++ "/" ++ tooLong) = ["echo", tooLong] ∧
    Path.rootOf ("echo" ++ "/" ++ tooLong) = "" := by
  constructor
  · have hslash : '/' ∉ tooLong.toList := by
      intro hmem
      rw [toList_tooLong] at hmem
      exact absurd (List.eq_of_mem_replicate hmem) (by decide)
    rw [Path.components_append hslash]
    rfl
  · rw [String.append_assoc, Path.rootOf_append (by decide)]
    rfl

/-- The tree with the dangling link is proper. -/
theorem isProper_keptFiles : keptFiles.IsProper where
  nodup := by decide
  entryName l hl n hn := by
    have hnames : ∀ l ∈ keptFiles.nodes.keys, ∀ n ∈ l, n ∈ ["b", "cd", "echo", "m"] := by decide
    exact isName_kept (hnames l hl n hn)

/-- It holds two modules. -/
theorem names_keptFiles : keptFiles.names ["b"] = ["cd", "echo"] := by
  have hsorted : (["cd", "echo"] : List String).Pairwise fun a b => decide (a ≤ b) = true := by decide
  exact List.mergeSort_of_pairwise hsorted

/-- In both worlds the paths lead to the directories. -/
theorem leadsTo_kept {w : World} (hfiles : keptFiles.Below w.files) :
    w.LeadsTo (Path.ofNames ["m"]) ["m"] ∧ w.LeadsTo (Path.ofNames ["b"]) ["b"] := by
  have hm : Leads keptFiles .followed maxLinks [] ["", "m"] (.found ["m"] .directory) :=
    .skip (.inl rfl) (.enter (isName_kept (by simp)).1 rfl (by decide) .here)
  have hb : Leads keptFiles .followed maxLinks [] ["", "b"] (.found ["b"] .directory) :=
    .skip (.inl rfl) (.enter (isName_kept (by simp)).1 rfl (by decide) .here)
  exact ⟨⟨"/m", rfl, resolve_of_leads (by decide) (by decide) (by decide) (hm.of_below hfiles trivial) _⟩,
    ⟨"/b", rfl, resolve_of_leads (by decide) (by decide) (by decide) (hb.of_below hfiles trivial) _⟩⟩

/-- The directory stands apart from the modules. -/
theorem apart_keptWorld : keptWorld.Apart (Path.ofNames ["m"]) ["m"] ["b"] := by
  -- Of the tree without what is in the directory, the directory of the modules is enough.
  obtain ⟨base, hbase⟩ : ∃ base : FileTree, ∀ p, base.node? p = if ["b"] = p then some .directory
      else (⟨⟨[]⟩⟩ : FileTree).node? p := ⟨_, node?_put ⟨⟨[]⟩⟩ (by decide) .directory⟩
  have hleads : Leads base .followed maxLinks [] ["", "b"] (.found ["b"] .directory) :=
    .skip (.inl rfl) (.enter (isName_kept (by simp)).1 (hbase _) (by decide) .here)
  refine apart_of_plain (leadsTo_kept (.refl _)).1 (by decide) rfl rfl
    (resolve_of_leads (by decide) (by decide) (by decide) hleads _) ?_ ?_
    (fun n => isProper_keptFiles.isEntryName) (fun n target hlink => ?_) (by decide) (by decide)
  · intro p node hnode
    rw [hbase] at hnode
    split at hnode
    · subst p
      exact hnode
    · unfold FileTree.node? at hnode ⊢
      split at hnode
      · rename_i hroot
        rw [if_pos hroot]
        exact hnode
      · cases hnode
  · rintro p ⟨rest, rfl⟩ -
    rw [hbase]
    rfl
  · have hn : n ∈ keptFiles.names ["b"] := mem_names_iff.mpr ⟨_, hlink⟩
    rw [names_keptFiles] at hn
    simp only [List.mem_cons, List.not_mem_nil, or_false] at hn
    rcases hn with rfl | rfl
    · cases hlink
    · cases hlink

/-- In both worlds the modules are modules. -/
theorem run_isModule_kept {w : World} (hfiles : keptFiles.Below w.files) :
    (isModule ((Path.ofNames ["b"]).entry "cd")).run w = .ok true w ∧
      (isModule ((Path.ofNames ["b"]).entry "echo")).run w = .ok true w := by
  have hcd : Leads keptFiles .followed maxLinks [] ["", "b", "cd"] (.found ["b", "cd"] .directory) :=
    .skip (.inl rfl) (.enter (isName_kept (by simp)).1 rfl (by decide)
      (.enter (isName_kept (by simp)).1 rfl (by decide) .here))
  have hecho : Leads keptFiles .followed maxLinks [] ["", "b", "echo"] (.found ["b", "echo"] .directory) :=
    .skip (.inl rfl) (.enter (isName_kept (by simp)).1 rfl (by decide)
      (.enter (isName_kept (by simp)).1 rfl (by decide) .here))
  have hfind {path : String} {l : Location} (hroot : Path.rootOf path ≠ "") (hempty : path ≠ "")
      (hlong : path.utf8ByteSize < pathLimit)
      (h : Leads keptFiles .followed maxLinks [] (Path.components path) (.found l .directory)) :
      w.files.find w.cwd path = .ok .directory := by
    rw [find, resolve_of_leads hempty hlong hroot (h.of_below hfiles trivial)]
  exact ⟨run_isModule rfl (hfind (by decide) (by decide) (by decide) hcd) (by decide),
    run_isModule rfl (hfind (by decide) (by decide) (by decide) hecho) (by decide)⟩

/-- The link is followed to the name that is too long, if what is before it is there. -/
theorem resolve_keptLink {t : FileTree} (ht : keptFiles.Below t) (cwd : WorkingDirectory) :
    t.resolve cwd .followed "/m/cd" = t.walk .followed 39 ["m"] ["echo", tooLong] := by
  obtain ⟨hcomponents, hroot⟩ := components_kept
  have hslash {rest : List String} : ¬(LastName.followed = .written ∧ isSlashed rest = true) :=
    fun h => nomatch h.1
  have hm : t.node? ([] ++ ["m"]) = some .directory := ht _ _ rfl
  have hcd : t.node? (["m"] ++ ["cd"]) = some (.link ("echo" ++ "/" ++ tooLong)) := ht _ _ rfl
  have hpath : Path.components "/m/cd" = ["", "m", "cd"] := rfl
  rw [resolve, if_neg (by decide), if_neg (by decide), if_neg (by decide), hpath, walk, if_pos (.inl rfl),
    walk_name (isName_kept (by simp)).1 hslash, hm]
  show t.walk .followed maxLinks ["m"] ["cd"] = _
  rw [walk_name (isName_kept (by simp)).1 hslash, hcd]
  show t.walk .followed 39 (if Path.rootOf ("echo" ++ "/" ++ tooLong) = "" then ["m"] else [])
    (Path.components ("echo" ++ "/" ++ tooLong) ++ []) = _
  rw [if_pos hroot, hcomponents, List.append_nil]

/-- The first link only lets the tree grow. -/
theorem below_keptLinked : keptFiles.Below keptLinked.files := below_put rfl _

/-- At first the link leads nowhere. -/
theorem resolve_keptFiles (cwd : WorkingDirectory) :
    keptFiles.resolve cwd .followed "/m/cd" = .error .noEntry := by
  have hslash {rest : List String} : ¬(LastName.followed = .written ∧ isSlashed rest = true) :=
    fun h => nomatch h.1
  have hfree : keptFiles.node? (["m"] ++ ["echo"]) = none := rfl
  rw [resolve_keptLink (.refl _), walk_name (isName_kept (by simp)).1 hslash, hfree]
  rfl

/-- Once the other module is linked it is followed to the name that is too long. -/
theorem resolve_keptLinked (cwd : WorkingDirectory) :
    keptLinked.files.resolve cwd .followed "/m/cd" = .error .nameTooLong := by
  have hslash {rest : List String} : ¬(LastName.followed = .written ∧ isSlashed rest = true) :=
    fun h => nomatch h.1
  have hlink : keptLinked.files.node? (["m"] ++ ["echo"]) = some (.link "/b/echo") := rfl
  have hb : keptLinked.files.node? ([] ++ ["b"]) = some .directory := rfl
  have hecho : keptLinked.files.node? (["b"] ++ ["echo"]) = some .directory := rfl
  have hlong : maxName < tooLong.utf8ByteSize := by
    rw [size_tooLong]
    decide
  have hname : ¬(tooLong = "" ∨ tooLong = ".") ∧ tooLong ≠ ".." := by
    refine ⟨?_, ?_⟩
    · rintro (hsame | hsame)
      · rw [hsame] at hlong
        exact absurd hlong (by decide)
      · rw [hsame] at hlong
        exact absurd hlong (by decide)
    · intro hsame
      rw [hsame] at hlong
      exact absurd hlong (by decide)
  rw [resolve_keptLink below_keptLinked, walk_name (isName_kept (by simp)).1 hslash, hlink]
  show keptLinked.files.walk .followed 38 [] ["", "b", "echo", tooLong] = _
  rw [walk, if_pos (.inl rfl), walk_name (isName_kept (by simp)).1 hslash, hb]
  show keptLinked.files.walk .followed 38 ["b"] ["echo", tooLong] = _
  rw [walk_name (isName_kept (by simp)).1 hslash, hecho]
  show keptLinked.files.walk .followed 38 ["b", "echo"] [tooLong] = _
  rw [walk, if_neg hname.1, if_neg hname.2, if_neg hslash, if_pos hlong]

/-- **Installing** in the small world keeps the one link and makes the other. -/
theorem run_keptWorld : (installBuiltins (Path.ofNames ["m"]) false).run keptWorld
    = .ok ["/m/echo -> /b/echo"] keptLinked := by
  obtain ⟨hleads, hbuiltins⟩ := leadsTo_kept (w := keptWorld) (.refl _)
  obtain ⟨hcd, hecho⟩ := run_isModule_kept (w := keptWorld) (.refl _)
  have hfits : ((Path.ofNames ["m"]).child "cd").Fits := ⟨"/m/cd", rfl, by decide⟩
  -- The link is kept, since it is one.
  have htaken : IsTaken keptWorld (Path.ofNames ["m"]) "cd" := by
    refine .inr ⟨?_, hleads.run_isLink rfl (isName_kept (by simp)) hfits rfl⟩
    have hname : Files.fileName ((Path.ofNames ["m"]).child "cd").text = .ok "/m/cd" := rfl
    have hfind : keptFiles.find default "/m/cd" = .error .noEntry := by
      rw [find, resolve_keptFiles]
    exact Files.run_ask_absent hname (congrArg (Except.map fun _ => true) hfind) rfl
  -- The other name is free.
  have hname : Files.fileName ((Path.ofNames ["m"]).child "echo").text = .ok "/m/echo" := rfl
  have hfree (last : LastName) : keptFiles.resolve default last "/m/echo" = .ok (.free ["m"] "echo") := by
    have hleads : Leads keptFiles last maxLinks [] ["", "m", "echo"] (.free ["m"] "echo") :=
      .skip (.inl rfl) (.enter (isName_kept (by simp)).1 rfl (by simp [isSlashed])
        (.free (isName_kept (by simp)).1 rfl))
    exact resolve_of_leads (by decide) (by decide) (by decide) hleads _
  have hfind : keptFiles.find default "/m/echo" = .error .noEntry := by
    rw [find, hfree]
  have hthere : (Files.isThere ((Path.ofNames ["m"]).child "echo")).run keptWorld = .ok false keptWorld :=
    Files.run_ask_absent hname (congrArg (Except.map fun _ => true) hfind) rfl
  have hlink : (Files.isLink ((Path.ofNames ["m"]).child "echo")).run keptWorld = .ok false keptWorld :=
    Files.run_ask_ok hname (congrArg (Except.map _) (hfree .kept))
  have hmake : (Files.makeLink ((Path.ofNames ["m"]).child "echo")
      ((Path.ofNames ["b"]).entry "echo").text).run keptWorld = .ok () keptLinked := by
    have htarget : Files.fileName ((Path.ofNames ["b"]).entry "echo").text = .ok "/b/echo" := rfl
    refine Files.run_makeLink hname htarget ?_
    show keptFiles.makeLink default "/m/echo" "/b/echo" = _
    rw [makeLink, if_neg (by decide), if_neg (by decide), makeNode, hfree]
    rfl
  rw [run_installBuiltins hleads hbuiltins]
  show (linkModules _ false ((keptFiles.names ["b"]).map (Path.ofNames ["b"]).entry)).run keptWorld = _
  rw [names_keptFiles]
  refine (run_linkModules_of_isTaken hcd htaken).trans ?_
  exact run_linkModules_of_free hecho hthere hlink hmake rfl

/-- **Installing again** stops there. -/
theorem run_keptLinked : (installBuiltins (Path.ofNames ["m"]) false).run keptLinked
    = .error (.system .nameTooLong ["/m/cd"]) keptLinked := by
  obtain ⟨hleads, hbuiltins⟩ := leadsTo_kept below_keptLinked
  have hname : Files.fileName ((Path.ofNames ["m"]).child "cd").text = .ok "/m/cd" := rfl
  have hfind : keptLinked.files.find keptLinked.cwd "/m/cd" = .error .nameTooLong := by
    rw [find, resolve_keptLinked]
  have hfault : (Files.isThere ((Path.ofNames ["m"]).child "cd")).run keptLinked
      = .error (.system .nameTooLong ["/m/cd"]) keptLinked :=
    Files.run_ask_fault hname (congrArg (Except.map fun _ => true) hfind) rfl
  have hnames : keptLinked.files.names ["b"] = ["cd", "echo"] := names_keptFiles
  rw [run_installBuiltins hleads hbuiltins, hnames]
  exact run_linkModules_of_fault (run_isModule_kept below_keptLinked).1 hfault

/-- In the small world installing stands by what it says of the first run. -/
theorem installed_keptWorld : (Path.ofNames ["m"]).IsProper ∧
    (Files.makeDirectories (Path.ofNames ["m"])).run keptWorld = .ok () keptWorld ∧
    keptWorld.Apart (Path.ofNames ["m"]) ["m"] ["b"] ∧ keptWorld.files.IsProper ∧
    (installBuiltins (Path.ofNames ["m"]) false).run keptWorld = .ok ["/m/echo -> /b/echo"] keptLinked ∧
    ∃ names : List String, names.Pairwise (· < ·) ∧
      ["/m/echo -> /b/echo"] = names.map (describe (Path.ofNames ["m"]) (Path.ofNames ["b"])) ∧
      keptWorld.Installed ["m"] names keptLinked := by
  have hproper : (Path.ofNames ["m"]).IsProper := rfl
  have hmake := (leadsTo_kept (w := keptWorld) (.refl _)).1.run_makeDirectories
  obtain ⟨-, names, hascending, hlinked, -, hinstalled, -⟩ :=
    installed_of_installBuiltins hproper hmake apart_keptWorld isProper_keptFiles run_keptWorld
  exact ⟨hproper, hmake, apart_keptWorld, isProper_keptFiles, run_keptWorld, names, hascending, hlinked,
    hinstalled⟩

/-- **Installing again may stop**: the link that was kept leads to a name that is too long, now that the
module before it is linked. -/
theorem installed_once : keptWorld.Apart (Path.ofNames ["m"]) ["m"] ["b"] ∧ keptWorld.files.IsProper ∧
    (installBuiltins (Path.ofNames ["m"]) false).run keptWorld = .ok ["/m/echo -> /b/echo"] keptLinked ∧
    (installBuiltins (Path.ofNames ["m"]) false).run keptLinked
      = .error (.system .nameTooLong ["/m/cd"]) keptLinked :=
  ⟨apart_keptWorld, isProper_keptFiles, run_keptWorld, run_keptLinked⟩

end

end Program.Setup

end CommandShell
