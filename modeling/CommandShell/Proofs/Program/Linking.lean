import CommandShell.Program.Setup
import CommandShell.Proofs.Files.Replacing
import CommandShell.Proofs.Loader.Search

/-! # Linking the modules that come with the shell

Linking goes through the modules one by one (`Linking`): one whose name is taken is kept or replaced, and for
the others a link is made. Where nothing is replaced, nothing that was there is lost, and in the end there
is an entry for every module (`Linking.hasEntry`). So there is where entries are replaced, if the directory
and the modules are found without them (`Linking.hasEntry_of_spares`). -/

namespace CommandShell

/-- A path is that of a module that comes with the shell: it is listed in their directory, and leads to a
directory that is neither hidden nor private. -/
structure World.HasBuiltin (w : World) (source : Path) : Prop where
  /-- The path is listed. -/
  listed : ∃ sources, (Files.list w.builtinsDir).run w = .ok sources w ∧ source ∈ sources
  /-- It is that of a module. -/
  isModule : (Program.Setup.isModule source).run w = .ok true w

/-! ## Listings -/

/-- What is listed in a directory is listed in any tree that covers it. -/
theorem FileTree.exists_listing_of_covered {t t' : FileTree} {cwd : WorkingDirectory} {name : String}
    {names : List String} (h : t.listing cwd name = .ok names) (ht : t.Covered t') :
    ∃ names', t'.listing cwd name = .ok names' ∧ ∀ n ∈ names, n ∈ names' := by
  unfold listing at h ⊢
  cases hdirectory : t.directory cwd name with
  | error e =>
    rw [hdirectory] at h
    cases h
  | ok e =>
    rw [hdirectory] at h
    cases h
    refine ⟨(e.location?.map t'.names).getD [], by rw [ht.directory _ _ _ hdirectory]; rfl, ?_⟩
    show ∀ n ∈ (e.location?.map t.names).getD [], _
    intro n hn
    cases hlocation : e.location? with
    | none =>
      rw [hlocation] at hn
      exact absurd hn List.not_mem_nil
    | some l =>
      rw [hlocation] at hn
      obtain ⟨node, hnode⟩ := mem_names_iff.mp hn
      exact mem_names_iff.mpr (ht.node _ _ hnode)

/-- A directory that was listed gave the paths of its entries, without a change. -/
theorem Files.exists_listing_of_list {path : Path} {w w' : World} {paths : List Path}
    (h : (list path).run w = .ok paths w') :
    w' = w ∧ ∃ name names, fileName path.text = .ok name ∧ w.files.listing w.cwd name = .ok names ∧
      paths = names.map fun n => ⟨path.root, path.parts ++ [RawText.ofString n]⟩ := by
  rw [run_list_eq] at h
  cases hname : fileName path.text with
  | error f =>
    rw [hname] at h
    cases h
  | ok name =>
    rw [hname] at h
    simp only at h
    cases hlisting : w.files.listing w.cwd name with
    | error e =>
      rw [hlisting] at h
      cases h
    | ok names =>
      rw [hlisting] at h
      cases h
      exact ⟨rfl, name, names, rfl, hlisting, rfl⟩

namespace Program.Setup

open World Shell

/-! ## Modules -/

section

variable {w u w' : World} {source : Path}

/-- A path is that of a module if it leads to a directory and its name is one of a module. -/
theorem isModule_eq_true_iff : (isModule source).run w = .ok true w' ↔
    (Files.isDirectory source).run w = .ok true w' ∧ isModuleName source.name = true := by
  unfold isModule
  rw [run_bind_eq_ok_iff]
  constructor
  · rintro ⟨there, w₁, hthere, h⟩
    cases there with
    | false => cases h
    | true =>
      rw [if_pos rfl] at h
      obtain ⟨hname, rfl⟩ := EStateM.Result.ok.inj h
      exact ⟨hthere, hname⟩
  · rintro ⟨hthere, hname⟩
    refine ⟨true, w', hthere, ?_⟩
    rw [if_pos rfl, hname]
    rfl

/-- Asking whether a path is that of a module changes nothing. -/
theorem eq_of_run_isModule {there : Bool} (h : (isModule source).run w = .ok there w') : w' = w := by
  unfold isModule at h
  obtain ⟨isThere, w₁, hask, hanswer⟩ := run_bind_eq_ok_iff.mp h
  obtain rfl := Files.run_ask_eq hask
  cases isThere with
  | false =>
    cases hanswer
    rfl
  | true =>
    cases hanswer
    rfl

/-- A path is that of a module if it leads to a directory and ends with the name of one. -/
theorem outcome_isModule (source : Path) (w : World) : w.outcome (isModule source)
    = (w.outcome (Files.isDirectory source)).map fun there => there && isModuleName source.name := by
  rw [← outcome_bind_pure]
  refine congrArg w.outcome (bind_congr fun there => ?_)
  cases there with
  | true => rfl
  | false => rfl

/-- Asking changes nothing, so the answer is all there is. -/
theorem run_isModule_eq_ok_iff {answer : Bool} :
    (isModule source).run w = .ok answer w ↔ w.outcome (isModule source) = .ok answer := by
  refine ⟨outcome_of_ok, fun h => ?_⟩
  obtain ⟨w', hrun⟩ := exists_run_of_outcome h
  rwa [eq_of_run_isModule hrun] at hrun

/-- A module leads to a directory. -/
theorem find_of_isModule (h : (isModule source).run w = .ok true w') :
    ∃ name, Files.fileName source.text = .ok name ∧
      w.files.find w.cwd name = .ok .directory ∧ isModuleName source.name = true := by
  obtain ⟨hdirectory, hmodule⟩ := isModule_eq_true_iff.mp h
  obtain ⟨name, hname, -⟩ := Files.exists_of_run_ask hdirectory
  exact ⟨name, hname, (Files.find_of_isDirectory hname hdirectory).2, hmodule⟩

/-- A path that leads to a directory with the name of a module is told to be one. -/
theorem run_isModule {name : String} (hname : Files.fileName source.text = .ok name)
    (hfind : w.files.find w.cwd name = .ok .directory)
    (hmodule : isModuleName source.name = true) :
    (isModule source).run w = .ok true w :=
  isModule_eq_true_iff.mpr ⟨Files.run_ask_ok hname (by rw [hfind]; rfl), hmodule⟩

/-- A module stays one where the directories are kept. -/
theorem isModule_of_furnished (h : (isModule source).run w = .ok true w) (hu : w.Furnished u) :
    (isModule source).run u = .ok true u := by
  obtain ⟨name, hname, hfind, hmodule⟩ := find_of_isModule h
  obtain ⟨e, hdirectory⟩ := FileTree.find_eq_directory_iff.mp hfind
  refine run_isModule hname (FileTree.find_eq_directory_iff.mpr ⟨e, ?_⟩) hmodule
  rw [hu.cwd]
  exact hu.covered.directory _ _ _ hdirectory

/-- As long as no directory is lost, no module is. -/
theorem hasBuiltin_of_furnished (h : w.HasBuiltin source) (hu : w.Furnished u) :
    u.HasBuiltin source := by
  obtain ⟨sources, hlist, hmem⟩ := h.listed
  obtain ⟨-, name, names, hname, hlisting, rfl⟩ := Files.exists_listing_of_list hlist
  obtain ⟨n, hn, rfl⟩ := List.mem_map.mp hmem
  obtain ⟨names', hlisting', hnames⟩ := FileTree.exists_listing_of_covered hlisting hu.covered
  rw [← hu.cwd] at hlisting'
  have hlist' := Files.run_list hname hlisting'
  rw [← hu.builtinsDir] at hlist'
  exact ⟨⟨_, hlist', List.mem_map.mpr ⟨n, hnames n hn, by rw [hu.builtinsDir]⟩⟩,
    isModule_of_furnished h.isModule hu⟩

end

/-! ## Linking, module by module -/

/-- Linking modules makes one world of another, module by module. -/
inductive Linking (directory : Path) (force : Bool) : List Path → World → World → Prop
  /-- There is nothing to link. -/
  | done {w} : Linking directory force [] w w
  /-- What is no module is passed over. -/
  | pass {source rest w w'} (hsource : (isModule source).run w = .ok false w)
      (h : Linking directory force rest w w') : Linking directory force (source :: rest) w w'
  /-- A name that is taken is kept. -/
  | keep {source rest w w'} (hforce : force = false) (hentry : w.HasEntry directory source.name)
      (h : Linking directory force rest w w') : Linking directory force (source :: rest) w w'
  /-- A link is made. -/
  | make {source rest w w₁ w'}
      (hmake : (Files.makeLink (directory.child source.name) source.text).run w = .ok () w₁)
      (h : Linking directory force rest w₁ w') : Linking directory force (source :: rest) w w'
  /-- A name that is taken is replaced by a link. -/
  | replace {source rest w w₁ w₂ w'} (hforce : force = true)
      (hsource : (isModule source).run w = .ok true w)
      (hremove : (Files.remove (directory.child source.name)).run w = .ok () w₁)
      (hmake : (Files.makeLink (directory.child source.name) source.text).run w₁ = .ok () w₂)
      (h : Linking directory force rest w₂ w') : Linking directory force (source :: rest) w w'

variable {w w' : World} {directory : Path} {sources : List Path} {force : Bool} {linked : List String}

/-- Asking whether a name is taken changes nothing, and a name that is taken is that of an entry. -/
theorem hasEntry_of_isTaken {n : String} {isTaken : Bool}
    (h : (Files.isThere (directory.child n) >>= fun isThere =>
      if isThere then pure true else Files.isLink (directory.child n)).run w = .ok isTaken w') :
    w' = w ∧ (isTaken = true → w.HasEntry directory n) := by
  obtain ⟨isThere, w₁, hthere, hlink⟩ := run_bind_eq_ok_iff.mp h
  obtain rfl := Files.run_ask_eq hthere
  cases isThere with
  | true =>
    cases hlink
    exact ⟨rfl, fun _ => Files.hasEntry_of_isThere hthere⟩
  | false =>
    rw [if_neg Bool.false_ne_true] at hlink
    refine ⟨Files.run_ask_eq hlink, ?_⟩
    rintro rfl
    exact Files.hasEntry_of_isLink hlink

/-- **What linking does with a module**: it passes over what is no module, keeps a name that is taken, or makes
a link, for which it may remove what is there. -/
theorem linkModules_cons_eq_ok {source : Path}
    (h : (linkModules directory force (source :: sources)).run w = .ok linked w') :
    (isModule source).run w = .ok false w ∧ (linkModules directory force sources).run w = .ok linked w' ∨
      (isModule source).run w = .ok true w ∧
        (force = false ∧ w.HasEntry directory source.name ∧
            (linkModules directory force sources).run w = .ok linked w' ∨
          ∃ w₁ w₂ more, (w₁ = w ∨ force = true ∧
              (Files.remove (directory.child source.name)).run w = .ok () w₁) ∧
            (Files.makeLink (directory.child source.name) source.text).run w₁ = .ok () w₂ ∧
            (linkModules directory force sources).run w₂ = .ok more w' ∧
            linked = ((directory.child source.name).toString ++ " -> " ++ source.toString) :: more) := by
  rw [linkModules] at h
  obtain ⟨isModule?, w₁, hsource, hgo⟩ := run_bind_eq_ok_iff.mp h
  obtain rfl := eq_of_run_isModule hsource
  cases isModule? with
  | false => exact .inl ⟨hsource, hgo⟩
  | true =>
    refine .inr ⟨hsource, ?_⟩
    simp only [Bool.not_true, Bool.false_eq_true, if_false] at hgo
    -- A name is free, or it is taken and kept, or taken and replaced.
    obtain ⟨isTaken, w₂, htaken, hgo⟩ := run_bind_eq_ok_iff.mp hgo
    obtain ⟨rfl, hentry⟩ := hasEntry_of_isTaken htaken
    cases isTaken with
    | false =>
      simp only [Bool.false_and, Bool.false_eq_true, if_false] at hgo
      obtain ⟨_, w₃, hmake, hgo⟩ := run_bind_eq_ok_iff.mp hgo
      obtain ⟨more, w₄, hrest, hgo⟩ := run_bind_eq_ok_iff.mp hgo
      cases hgo
      exact .inr ⟨_, _, _, .inl rfl, hmake, hrest, rfl⟩
    | true =>
      cases force with
      | false => exact .inl ⟨rfl, hentry rfl, hgo⟩
      | true =>
        simp only [Bool.not_true, Bool.and_false, Bool.false_eq_true, if_false, if_true] at hgo
        obtain ⟨_, w₃, hremove, hgo⟩ := run_bind_eq_ok_iff.mp hgo
        obtain ⟨_, w₄, hmake, hgo⟩ := run_bind_eq_ok_iff.mp hgo
        obtain ⟨more, w₅, hrest, hgo⟩ := run_bind_eq_ok_iff.mp hgo
        cases hgo
        exact .inr ⟨_, _, _, .inr ⟨rfl, hremove⟩, hmake, hrest, rfl⟩

/-- A run that links modules does so step by step. -/
theorem linking_of_run (h : (linkModules directory force sources).run w = .ok linked w') :
    Linking directory force sources w w' := by
  induction sources generalizing w linked with
  | nil =>
    cases h
    exact .done
  | cons source rest ih =>
    obtain ⟨hsource, hrest⟩ | ⟨hsource, ⟨hforce, hentry, hrest⟩ | ⟨w₁, w₂, more, hfirst, hmake, hrest, -⟩⟩ :=
      linkModules_cons_eq_ok h
    · exact .pass hsource (ih hrest)
    · exact .keep hforce hentry (ih hrest)
    · obtain rfl | ⟨hforce, hremove⟩ := hfirst
      · exact .make hmake (ih hrest)
      · exact .replace hforce hsource hremove hmake (ih hrest)

/-- A name is taken if its entry is there or is a link. -/
def IsTaken (w : World) (directory : Path) (n : String) : Prop :=
  (Files.isThere (directory.child n)).run w = .ok true w ∨
    (Files.isThere (directory.child n)).run w = .ok false w ∧
      (Files.isLink (directory.child n)).run w = .ok true w

/-- A name that is taken is told to be, by what stands there or by the link itself. -/
theorem IsTaken.run {n : String} (h : IsTaken w directory n) :
    (Files.isThere (directory.child n) >>= fun isThere =>
      if isThere then pure true else Files.isLink (directory.child n)).run w = .ok true w := by
  obtain hthere | ⟨hthere, hlink⟩ := h
  · rw [run_bind_ok hthere]
    rfl
  · rw [run_bind_ok hthere, if_neg Bool.false_ne_true]
    exact hlink

/-- What is no module is passed over. -/
theorem run_linkModules_of_not_isModule {source : Path} (h : (isModule source).run w = .ok false w) :
    (linkModules directory force (source :: sources)).run w
      = (linkModules directory force sources).run w := by
  rw [linkModules, run_bind_ok h]
  rfl

/-- A name that is taken is kept. -/
theorem run_linkModules_of_isTaken {source : Path} (hmodule : (isModule source).run w = .ok true w)
    (htaken : IsTaken w directory source.name) : (linkModules directory false (source :: sources)).run w
      = (linkModules directory false sources).run w := by
  rw [linkModules, run_bind_ok hmodule]
  refine (run_bind_ok htaken.run _).trans ?_
  rfl

/-- Of a name that is free a link is made. -/
theorem run_linkModules_of_free {source : Path} {u : World}
    (hmodule : (isModule source).run w = .ok true w)
    (hthere : (Files.isThere (directory.child source.name)).run w = .ok false w)
    (hlink : (Files.isLink (directory.child source.name)).run w = .ok false w)
    (hmake : (Files.makeLink (directory.child source.name) source.text).run w = .ok () u)
    (hrest : (linkModules directory force sources).run u = .ok linked w') :
    (linkModules directory force (source :: sources)).run w
      = .ok (((directory.child source.name).toString ++ " -> " ++ source.toString) :: linked) w' := by
  have hfree : (Files.isThere (directory.child source.name) >>= fun isThere =>
      if isThere then pure true else Files.isLink (directory.child source.name)).run w = .ok false w := by
    rw [run_bind_ok hthere, if_neg Bool.false_ne_true]
    exact hlink
  rw [linkModules, run_bind_ok hmodule]
  refine (run_bind_ok hfree _).trans ((run_bind_ok hmake _).trans ?_)
  rw [run_bind_ok hrest]
  rfl

/-- A module whose entry cannot even be looked at ends the linking. -/
theorem run_linkModules_of_fault {source : Path} {f : Fault}
    (hmodule : (isModule source).run w = .ok true w)
    (hfault : (Files.isThere (directory.child source.name)).run w = .error f w) :
    (linkModules directory force (source :: sources)).run w = .error f w := by
  rw [linkModules, run_bind_ok hmodule]
  exact run_bind_error (run_bind_error hfault _) _

/-- **Where every name is taken**, linking without replacing anything makes no link, unless it is not told
whether an entry is there. -/
theorem run_linkModules_of_taken
    (h : ∀ source ∈ sources, (isModule source).run w = .ok false w ∨
      (isModule source).run w = .ok true w ∧ (IsTaken w directory source.name ∨
        ∃ f, (Files.isThere (directory.child source.name)).run w = .error f w)) :
    (linkModules directory false sources).run w = .ok [] w ∨
      ∃ source ∈ sources, (isModule source).run w = .ok true w ∧
        ∃ f, (Files.isThere (directory.child source.name)).run w = .error f w ∧
          (linkModules directory false sources).run w = .error f w := by
  induction sources with
  | nil => exact .inl rfl
  | cons source rest ih =>
    obtain ⟨hsource, hrest⟩ := List.forall_mem_cons.mp h
    -- Where this one is passed over, linking all is linking the others.
    have hpass (hrun : (linkModules directory false (source :: rest)).run w
        = (linkModules directory false rest).run w) :
        (linkModules directory false (source :: rest)).run w = .ok [] w ∨
          ∃ source' ∈ source :: rest, (isModule source').run w = .ok true w ∧
            ∃ f, (Files.isThere (directory.child source'.name)).run w = .error f w ∧
              (linkModules directory false (source :: rest)).run w = .error f w := by
      rw [hrun]
      refine (ih hrest).imp_right ?_
      rintro ⟨source', hmem, hfault⟩
      exact ⟨source', List.mem_cons_of_mem _ hmem, hfault⟩
    obtain hmodule | ⟨hmodule, htaken | ⟨f, hfault⟩⟩ := hsource
    · exact hpass (run_linkModules_of_not_isModule hmodule)
    · exact hpass (run_linkModules_of_isTaken hmodule htaken)
    · exact .inr ⟨source, List.mem_cons_self, hmodule, f, hfault, run_linkModules_of_fault hmodule hfault⟩

/-- **Where nothing is replaced**, nothing is lost, and in the end every module has an entry. -/
theorem Linking.hasEntry (h : Linking directory false sources w w') :
    w.Built w' ∧ ∀ source ∈ sources, (isModule source).run w = .ok true w →
      w'.HasEntry directory source.name := by
  induction h with
  | done => exact ⟨World.frame_built.refl _, fun _ h => absurd h List.not_mem_nil⟩
  | @pass source _ _ _ hsource _ ih =>
    refine ⟨ih.1, List.forall_mem_cons.mpr ⟨fun hmodule => ?_, ih.2⟩⟩
    rw [hsource] at hmodule
    cases hmodule
  | keep _ hentry _ ih =>
    exact ⟨ih.1, List.forall_mem_cons.mpr ⟨fun _ => hentry.of_built ih.1, ih.2⟩⟩
  | make hmake _ ih =>
    -- The link is there from now on, and the other modules still are.
    obtain ⟨hbuilt, hentry⟩ := Files.hasEntry_of_makeLink hmake
    refine ⟨World.frame_built.trans hbuilt ih.1, List.forall_mem_cons.mpr
      ⟨fun _ => hentry.of_built ih.1, fun source hsource hmodule => ?_⟩⟩
    exact ih.2 source hsource (isModule_of_furnished hmodule hbuilt.furnished)
  | replace hforce => cases hforce

/-! ## Replacing entries -/

/-- Replacing the entries of a directory that have the names of modules spares the nodes of a tree: it has no
such entries, and the directory is anchored in it. -/
structure Spares (base : FileTree) (directory : Path) (l : Location) (sources : List Path) : Prop where
  /-- The directory is found. -/
  anchored : base.Anchored directory l
  /-- Each entry is a single name. -/
  entryName : ∀ source ∈ sources, isModuleName source.name = true →
    FileTree.IsEntryName source.name
  /-- The entries are not there. -/
  bare : ∀ source ∈ sources, isModuleName source.name = true →
    ∀ l', l ++ [source.name] <+: l' → base.node? l' = none

/-- Replacing fewer entries spares at least as much. -/
theorem Spares.tail {base : FileTree} {l : Location} {source : Path}
    (h : Spares base directory l (source :: sources)) : Spares base directory l sources :=
  ⟨h.anchored, fun s hs => h.entryName s (List.mem_cons_of_mem _ hs),
    fun s hs => h.bare s (List.mem_cons_of_mem _ hs)⟩

/-- A module that an absolute path leads to is one in any world with the same nodes. -/
theorem isModule_of_below {source : Path} {u : World} (h : (isModule source).run w = .ok true w)
    (hroot : source.IsRooted) (hu : w.files.Below u.files) : (isModule source).run u = .ok true u := by
  obtain ⟨name, hname, hfind, hmodule⟩ := find_of_isModule h
  refine run_isModule hname ?_ hmodule
  rw [FileTree.find_cwd (hroot.rootOf_name hname) u.files u.cwd w.cwd]
  exact FileTree.find_of_below hfind hu

/-- **Where entries are replaced**, all nodes that are spared stay. So do the entries of the directory, if not
their nodes, and in the end every module that is spared has one. -/
theorem Linking.hasEntry_of_spares {base : FileTree} {l : Location}
    (h : Linking directory true sources w w') (hspares : Spares base directory l sources)
    (hbelow : base.Below w.files) :
    (base.Below w'.files ∧ w'.home = w.home ∧ w'.accounts = w.accounts) ∧
      (∀ n, FileTree.IsEntryName n → w.HasEntry directory n → w'.HasEntry directory n) ∧
      ∀ source ∈ sources, (∀ u : World, base.Below u.files → (isModule source).run u = .ok true u) →
        w'.HasEntry directory source.name := by
  induction h with
  | done => exact ⟨⟨hbelow, rfl, rfl⟩, fun _ _ h => h, fun _ h => absurd h List.not_mem_nil⟩
  | @pass source _ w _ hsource _ ih =>
    obtain ⟨hsame, hkept, hentries⟩ := ih hspares.tail hbelow
    refine ⟨hsame, hkept, List.forall_mem_cons.mpr ⟨fun hmodule => ?_, hentries⟩⟩
    rw [hmodule w hbelow] at hsource
    cases hsource
  | keep hforce => cases hforce
  | @make source _ w w₁ _ hmake _ ih =>
    obtain ⟨hbuilt, hentry⟩ := Files.hasEntry_of_makeLink hmake
    obtain ⟨⟨hbelow', hhome, haccounts⟩, hkept, hentries⟩ :=
      ih hspares.tail (hbelow.trans hbuilt.below)
    refine ⟨⟨hbelow', hhome.trans hbuilt.home, haccounts.trans hbuilt.accounts⟩,
      fun n hn h => hkept n hn (h.of_built hbuilt), List.forall_mem_cons.mpr
      ⟨fun hmodule => hkept _ ?_ hentry, hentries⟩⟩
    obtain ⟨_, _, _, hname⟩ := find_of_isModule (hmodule w hbelow)
    exact hspares.entryName source List.mem_cons_self hname
  | @replace source _ w w₁ w₂ _ _ hsource hremove hmake _ ih =>
    obtain ⟨_, _, _, hname⟩ := find_of_isModule hsource
    have hn := hspares.entryName source List.mem_cons_self hname
    have hbare := hspares.bare source List.mem_cons_self hname
    have hcut := Files.cut_remove hremove hspares.anchored hbelow hn
    have hbelow₁ := hbelow.of_node hbare hcut.node
    obtain ⟨hbuilt, hentry⟩ := Files.hasEntry_of_makeLink hmake
    obtain ⟨⟨hbelow', hhome, haccounts⟩, hkept, hentries⟩ :=
      ih hspares.tail (hbelow₁.trans hbuilt.below)
    refine ⟨⟨hbelow', hhome.trans (hbuilt.home.trans hcut.home),
      haccounts.trans (hbuilt.accounts.trans hcut.accounts)⟩, fun n hn h => hkept n hn ?_,
      List.forall_mem_cons.mpr ⟨fun _ => hkept _ hn hentry, hentries⟩⟩
    -- The entry is the one that was replaced, or another one.
    by_cases heq : source.name = n
    · exact heq ▸ hentry
    · exact (hspares.anchored.hasEntry_of_cut hbelow hn h heq hcut hbelow₁).of_built hbuilt

end Program.Setup

end CommandShell
