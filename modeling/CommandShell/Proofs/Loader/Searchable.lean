import CommandShell.Proofs.Files.Growth
import CommandShell.Proofs.Loader.Discovery

/-! # Directories that can be searched

A directory has a module of a name if it lists the name, a visible one, and a directory with an initial
file stands there (`World.IsModule`). The search asks about the directory, about what it lists and about the
initial files of visible directories in it. A path that leads nowhere is no failure; only one that is too
long is, and this ends the search (`World.yields_modulesIn`). -/

namespace CommandShell

open Shell

/-! ## Names that are too long -/

namespace FileTree

variable {t : FileTree} {last : LastName} {links : Nat} {place : Location} {cs : List String} {e : Errno}

/-- A path that is only looked up leads somewhere or nowhere, or it is too long. -/
theorem eq_nameTooLong_of_walk (hlast : last ≠ .written) (h : t.walk last links place cs = .error e)
    (he : Files.meansAbsent e = false) : e = .nameTooLong := by
  -- By induction on the walk. It ends with too long a name, or with a fault that means absence.
  fun_induction walk t last links place cs with
  | case1 => cases h
  | case2 _ _ _ _ _ ih => exact ih h
  | case3 _ _ _ _ ih => exact ih h
  | case4 _ _ _ _ _ _ hslash => exact absurd hslash.1 hlast
  | case5 =>
    cases h
    rfl
  | case8 _ _ _ _ _ _ _ _ _ ih => exact ih h
  | case13 _ _ _ _ _ _ _ _ _ _ _ _ ih => exact ih h
  | case6 | case9 | case11 => cases h
  | case7 | case10 | case12 =>
    cases h
    cases he

/-- A search for one path ends with an error that does not mean absence only if something is too long. -/
theorem eq_nameTooLong_of_find {cwd : WorkingDirectory} {name : String}
    (h : t.find cwd name = .error e) (he : Files.meansAbsent e = false) : e = .nameTooLong := by
  have hwalk {links : Nat} {place : Location} {cs : List String}
      (h : t.walk .followed links place cs = .error e) : e = .nameTooLong :=
    eq_nameTooLong_of_walk (by decide) h he
  have hwalkOut {d : WorkingDirectory} {cs : List String} (h : t.walkOut .followed d cs = .error e) :
      e = .nameTooLong := by
    fun_induction walkOut t .followed d cs with
    | case1 => cases h
    | case2 => exact hwalk h
    | case3 _ _ _ _ _ ih => exact ih h
    | case4 _ _ _ _ ih => exact ih h
    | case5 =>
      cases h
      cases he
  -- All other errors of a walk mean that nothing is there.
  unfold find at h
  split at h
  · rename_i hresolve
    cases h
    unfold resolve at hresolve
    split at hresolve
    · cases hresolve
      cases he
    · split at hresolve
      · cases hresolve
        rfl
      · split at hresolve
        · exact hwalkOut hresolve
        · exact hwalk hresolve
  · cases h
  · cases h
    cases he
  · cases h

/-- A destination that is lost lies in a lost directory. -/
theorem lost_ne_zero {cwd d : WorkingDirectory} {text : String}
    (h : t.resolve cwd .followed text = .ok (.lost d)) : d.lost ≠ 0 := by
  have hwalkOut {e : WorkingDirectory} {cs : List String}
      (h : t.walkOut .followed e cs = .ok (.lost d)) : d.lost ≠ 0 := by
    fun_induction walkOut t .followed e cs with
    | case1 =>
      split at h
      · cases h
      · rename_i hlost
        cases h
        exact hlost
    | case2 => exact absurd rfl ((leads_of_walk h).ne_lost d)
    | case3 _ _ _ _ _ ih => exact ih h
    | case4 _ _ _ _ ih => exact ih h
    | case5 => cases h
  unfold resolve at h
  split at h
  · cases h
  · split at h
    · cases h
    · split at h
      · exact hwalkOut h
      · exact absurd rfl ((leads_of_walk h).ne_lost d)

/-- One name of too many bytes is looked up in vain. -/
theorem find_of_long {name : String} (hslash : '/' ∉ name.toList)
    (hlong : maxName < name.utf8ByteSize) (cwd : WorkingDirectory) :
    t.find cwd ("/" ++ name) = .error .nameTooLong := by
  have hsize {short : String} (hshort : short.utf8ByteSize ≤ 2) : name ≠ short := by
    rintro rfl
    unfold maxName at hlong
    omega
  -- The name is none that a walk skips or takes upwards, so its length is looked at.
  have hblank : ¬ (name = "" ∨ name = ".") :=
    not_or_intro (hsize (by decide)) (hsize (by decide))
  have hwalk : t.walk .followed maxLinks [] ["", name] = .error .nameTooLong := by
    rw [walk, if_pos (.inl rfl), walk, if_neg hblank, if_neg (hsize (by decide))]
    exact if_pos hlong
  have hroot : Path.rootOf ("/" ++ name) ≠ "" :=
    mt (Path.rootOf_append (by decide) name).mp (by decide)
  have hempty : "/" ++ name ≠ "" := by
    intro h
    rw [h] at hroot
    exact hroot rfl
  have hcomponents : Path.components ("/" ++ name) = ["", name] := Path.components_append hslash ""
  unfold find resolve
  rw [if_neg hempty, if_neg hroot, hcomponents, hwalk, ite_self]

end FileTree

/-- The text of a path with one name behind the root. -/
theorem Files.fileName_rooted {name : String} (hnul : Char.ofNat 0 ∉ name.toList) :
    fileName (Path.mk "/" [RawText.ofString name]).text = .ok ("/" ++ name) := by
  have hpoints : (RawText.ofString ("/" ++ name)).points
      = (RawText.ofString "/").points ++ (RawText.ofString name).points := by
    rw [RawText.ofString, String.toList_append, List.map_append]
    rfl
  have htext : (Path.mk "/" [RawText.ofString name]).text = RawText.ofString ("/" ++ name) := by
    have hone : RawText.intercalate "/" [RawText.ofString name] = RawText.ofString name := by
      simp [RawText.intercalate]
    rw [Path.text, if_neg (by simp), hone]
    exact (congrArg RawText.mk hpoints).symm
  rw [htext, fileName_eq_ok_iff, RawText.toString_ofString, String.toList_append, List.mem_append, not_or]
  exact ⟨RawText.flaw?_ofString _, rfl, by decide, hnul⟩

namespace World

variable {w : World} {directory path : Path} {name k : String}

/-- The node that a path leads to, if there is one. -/
def node? (w : World) (path : Path) : Option Node :=
  match Files.fileName path.text with
  | .error _ => none
  | .ok name => (w.files.find w.cwd name).toOption

/-- A path is too long to be looked up, itself or where a link on it leads. -/
def TooLong (w : World) (path : Path) : Prop :=
  ∃ name, Files.fileName path.text = .ok name ∧ w.files.find w.cwd name = .error .nameTooLong

/-- A path that is too long leads nowhere. -/
theorem node?_of_tooLong (h : w.TooLong path) : w.node? path = none := by
  obtain ⟨text, htext, hfind⟩ := h
  unfold node?
  rw [htext]
  dsimp only
  rw [hfind]
  rfl

/-- A path that leads to a node is not too long. -/
theorem not_tooLong_of_node? {node : Node} (h : w.node? path = some node) : ¬ w.TooLong path := by
  intro hlong
  rw [node?_of_tooLong hlong] at h
  cases h

/-- The node that a path leads to is found there. -/
theorem node?_of_resolve {text : String} {place : Location} {node : Node} (htext : Files.fileName path.text = .ok text)
    (h : w.files.resolve w.cwd .followed text = .ok (.found place node)) : w.node? path = some node := by
  unfold node?
  rw [htext]
  dsimp only
  rw [FileTree.find, h]
  rfl

/-- A name of too many bytes is too long, whatever the files are. -/
theorem tooLong_of_name {name : String} (hslash : '/' ∉ name.toList) (hnul : Char.ofNat 0 ∉ name.toList)
    (hlong : FileTree.maxName < name.utf8ByteSize) : w.TooLong ⟨"/", [RawText.ofString name]⟩ :=
  ⟨"/" ++ name, Files.fileName_rooted hnul, FileTree.find_of_long hslash hlong w.cwd⟩

/-- A part of the search gives something if a condition holds, and otherwise meets a path that is too
long. -/
def Yields {α : Type} (w : World) (P : Prop) (r : Except Fault α) (x : α) : Prop :=
  (P ∧ r = .ok x) ∨
    (¬ P ∧ ∃ path, w.TooLong path ∧ r = .error (.system .nameTooLong [path.text]))

section

variable {α β : Type} {P : Prop} {r : Except Fault α} {x : α}

/-- The condition may be put in other words. -/
theorem Yields.iff {Q : Prop} (h : w.Yields P r x) (hPQ : P ↔ Q) : w.Yields Q r x := propext hPQ ▸ h

/-- A search in two parts gives something if both conditions hold, and else meets the first path that is
too long. -/
theorem Yields.bind {Q : Prop} {s : α → Except Fault β} {y : β} (h : w.Yields P r x)
    (hs : P → w.Yields Q (s x) y) : w.Yields (P ∧ Q) (r >>= s) y := by
  obtain ⟨hP, rfl⟩ | ⟨hP, path, hlong, rfl⟩ := h
  · obtain ⟨hQ, hsx⟩ | ⟨hQ, path, hlong, hsx⟩ := hs hP
    · exact .inl ⟨⟨hP, hQ⟩, hsx⟩
    · exact .inr ⟨fun h => hQ h.2, path, hlong, hsx⟩
  · exact .inr ⟨fun h => hP h.1, path, hlong, rfl⟩

/-- What a search gives may be put in another form. -/
theorem Yields.map (h : w.Yields P r x) (g : α → β) : w.Yields P (r.map g) (g x) := by
  obtain ⟨hP, rfl⟩ | ⟨hP, path, hlong, rfl⟩ := h
  · exact .inl ⟨hP, rfl⟩
  · exact .inr ⟨hP, path, hlong, rfl⟩

/-- A search through a list ends at the first entry that is too long. -/
theorem yields_mapM {l : List β} {Q : β → Prop} {f : β → Except Fault α} {g : β → α}
    (h : ∀ b ∈ l, w.Yields (Q b) (f b) (g b)) : w.Yields (∀ b ∈ l, Q b) (l.mapM f) (l.map g) := by
  induction l with
  | nil => exact .inl ⟨by simp, rfl⟩
  | cons b l ih =>
    rw [List.mapM_cons]
    obtain ⟨hb, hfirst⟩ | ⟨hb, path, hlong, hfirst⟩ := h b List.mem_cons_self
    · rw [hfirst]
      obtain ⟨hl, hrest⟩ | ⟨hl, path, hlong, hrest⟩ := ih fun c hc => h c (List.mem_cons_of_mem _ hc)
      · rw [hrest]
        exact .inl ⟨List.forall_mem_cons.mpr ⟨hb, hl⟩, rfl⟩
      · rw [hrest]
        exact .inr ⟨fun hall => hl (List.forall_mem_cons.mp hall).2, path, hlong, rfl⟩
    · rw [hfirst]
      exact .inr ⟨fun hall => hb (List.forall_mem_cons.mp hall).1, path, hlong, rfl⟩

end

/-- **A path is looked up** unless it is too long. -/
theorem yields_nodeAt (path : Path) : w.Yields (¬ w.TooLong path) (w.nodeAt path) (w.node? path) := by
  unfold nodeAt node?
  cases hname : Files.fileName path.text with
  | error f =>
    -- What is no name of a file is not looked up, so it is not too long either.
    refine .inl ⟨?_, rfl⟩
    rintro ⟨name, hname', -⟩
    rw [hname] at hname'
    cases hname'
  | ok name =>
    have hiff : w.TooLong path ↔ w.files.find w.cwd name = .error .nameTooLong := by
      simp [TooLong, hname]
    dsimp only
    cases hfind : w.files.find w.cwd name with
    | ok node =>
      refine .inl ⟨fun hlong => ?_, rfl⟩
      rw [hiff, hfind] at hlong
      cases hlong
    | error e =>
      by_cases habsent : Files.meansAbsent e = true
      · refine .inl ⟨fun hlong => ?_, if_pos habsent⟩
        rw [hiff, hfind] at hlong
        cases hlong
        cases habsent
      · obtain rfl := FileTree.eq_nameTooLong_of_find hfind (Bool.eq_false_iff.mpr habsent)
        exact .inr ⟨not_not_intro (hiff.mpr hfind), path, hiff.mpr hfind, if_neg habsent⟩

/-! ## Modules in a directory -/

/-- A path leads to a directory in which something stands under a name. -/
def Lists (w : World) (directory : Path) (name : String) : Prop :=
  ∃ text place node, Files.fileName directory.text = .ok text ∧
    w.files.resolve w.cwd .followed text = .ok (.found place .directory) ∧
    w.files.node? (place ++ [name]) = some node

/-- A name is neither hidden nor private. -/
def Visible (name : String) : Prop := name.toList.head? ≠ some '.' ∧ name.toList.head? ≠ some '_'

instance : Decidable (Visible name) := inferInstanceAs (Decidable (_ ∧ _))

/-- There is a module of a name in a directory. -/
structure IsModule (w : World) (directory : Path) (name : String) : Prop where
  /-- The directory lists the name. -/
  listed : w.Lists directory name
  /-- A directory stands there, perhaps through links. -/
  isDirectory : w.node? (directory.entry name) = some .directory
  /-- The name is neither hidden nor private. -/
  visible : Visible name
  /-- The directory has an initial file. -/
  initial : (w.node? (moduleFile directory name)).isSome

/-- No path that is asked about for an entry of a directory is too long: neither the entry nor, if it is a
visible directory, its initial file. -/
def EntrySearchable (w : World) (directory : Path) (name : String) : Prop :=
  ¬ w.TooLong (directory.entry name) ∧
    (w.node? (directory.entry name) = some .directory → Visible name →
      ¬ w.TooLong (moduleFile directory name))

/-- No path that is asked about in the search of a directory is too long. -/
structure Searchable (w : World) (directory : Path) : Prop where
  /-- Not the directory. -/
  itself : ¬ w.TooLong directory
  /-- None for an entry of it. -/
  entries : ∀ name, w.Lists directory name → w.EntrySearchable directory name

/-- A name is that of a module if it is visible. -/
theorem isModuleName_iff : isModuleName name = true ↔ Visible name := by
  have hstart (c : Char) : Text.startsWith name (String.singleton c) = false
      ↔ name.toList.head? ≠ some c := by
    unfold Text.startsWith
    rw [String.toList_singleton]
    cases name.toList with
    | nil => simp
    | cons b bs =>
      by_cases hb : b = c
      · simp [List.isPrefixOf, hb]
      · simp [List.isPrefixOf, hb, Ne.symm hb]
  unfold isModuleName Visible
  rw [← hstart, ← hstart, Bool.not_eq_true', Bool.or_eq_false_iff]
  rfl

/-- The listing of a directory has the names that the directory lists. -/
theorem mem_listed_iff : name ∈ w.listed directory ↔ w.Lists directory name := by
  unfold listed Lists
  cases htext : Files.fileName directory.text with
  | error f => simp
  | ok text =>
    unfold FileTree.listing FileTree.directory
    cases hresolve : w.files.resolve w.cwd .followed text with
    | error e => simp [Except.map, hresolve]
    | ok d =>
      cases d with
      | found place node =>
        cases node with
        | directory =>
          simp [Except.map, WorkingDirectory.ofLocation, WorkingDirectory.location?, hresolve,
            FileTree.mem_names_iff]
        | file content => simp [Except.map, hresolve]
        | link target => simp [Except.map, hresolve]
      | free place name => simp [Except.map, hresolve]
      | lost e =>
        simp [Except.map, hresolve, WorkingDirectory.location?, FileTree.lost_ne_zero hresolve]

/-- What lists names is a directory. -/
theorem Lists.node?_eq (h : w.Lists directory name) : w.node? directory = some .directory := by
  obtain ⟨text, place, node, htext, hresolve, -⟩ := h
  unfold node?
  rw [htext]
  show (w.files.find w.cwd text).toOption = _
  rw [FileTree.find, hresolve]
  rfl

/-- The file of a module stands in the directory of the module. -/
theorem parent_moduleFile (directory : Path) (name : String) :
    (moduleFile directory name).parent = directory.entry name := by
  have hchild : moduleFile directory name = ⟨(directory.entry name).root,
      (directory.entry name).parts ++ [RawText.ofString initialFile]⟩ := rfl
  rw [hchild, Path.parent, List.dropLast_concat]

/-- What is there is a directory if the node is. -/
theorem any_isDirectory_iff {node? : Option Node} :
    node?.any Node.isDirectory = true ↔ node? = some .directory := by
  cases node? with
  | none => simp
  | some node => cases node <;> simp [Node.isDirectory]

/-- Only in a visible directory an initial file is looked for. -/
theorem initialAt_entry (w : World) (directory : Path) (name : String) :
    w.initialAt (directory.entry name) = w.nodeAt (directory.entry name) >>= fun node? =>
      if node?.any Node.isDirectory = true ∧ Visible name then
        (w.nodeAt (moduleFile directory name)).map (·.map fun _ => moduleFile directory name)
      else .ok none := by
  have hfile : (directory.entry name).child initialFile = moduleFile directory name := rfl
  unfold initialAt holds
  rw [Path.name_entry, hfile]
  cases w.nodeAt (directory.entry name) with
  | error f => rfl
  | ok node? =>
    simp only [Except.map, bind, Except.bind, pure, Except.pure, ← isModuleName_iff]
    cases node?.any Node.isDirectory with
    | false => simp
    | true =>
      cases isModuleName name with
      | false => simp
      | true =>
        cases w.nodeAt (moduleFile directory name) with
        | error f => simp
        | ok there? => cases there? <;> simp

/-- The initial file of the module of a name in a directory, if there is one. -/
def moduleAt (w : World) (directory : Path) (name : String) : Option Path :=
  if (w.node? (directory.entry name)).any Node.isDirectory = true ∧ Visible name then
    (w.node? (moduleFile directory name)).map fun _ => moduleFile directory name
  else none

/-- A name in a directory stands for a module exactly if it is one, with its initial file. -/
theorem moduleAt_eq_some_iff (hlists : w.Lists directory name) : w.moduleAt directory name = some path ↔
    w.IsModule directory name ∧ path = moduleFile directory name := by
  unfold moduleAt
  split
  · rename_i hasks
    have hdirectory := any_isDirectory_iff.mp hasks.1
    cases hinitial : w.node? (moduleFile directory name) with
    | none =>
      refine iff_of_false (fun h => by cases h) fun h => ?_
      have hsome := h.1.initial
      rw [hinitial] at hsome
      cases hsome
    | some node =>
      have hmodule : w.IsModule directory name :=
        ⟨hlists, hdirectory, hasks.2, by rw [hinitial]; rfl⟩
      exact ⟨fun h => ⟨hmodule, (Option.some.inj h).symm⟩, fun h => congrArg some h.2.symm⟩
  · rename_i hasks
    refine iff_of_false (fun h => by cases h) fun h => hasks ?_
    exact ⟨any_isDirectory_iff.mpr h.1.isDirectory, h.1.visible⟩

/-- **An entry of a directory** is looked at unless a path for it is too long. -/
theorem yields_initialAt (directory : Path) (name : String) :
    w.Yields (w.EntrySearchable directory name) (w.initialAt (directory.entry name))
      (w.moduleAt directory name) := by
  rw [initialAt_entry]
  have hinitial : w.Yields ((w.node? (directory.entry name)).any Node.isDirectory = true ∧
        Visible name → ¬ w.TooLong (moduleFile directory name))
      (if (w.node? (directory.entry name)).any Node.isDirectory = true ∧ Visible name then
        (w.nodeAt (moduleFile directory name)).map (·.map fun _ => moduleFile directory name)
      else .ok none) (w.moduleAt directory name) := by
    unfold moduleAt
    split
    · rename_i hasks
      exact ((yields_nodeAt _).map _).iff ⟨fun h _ => h, fun h => h hasks⟩
    · rename_i hasks
      exact .inl ⟨fun h => absurd h hasks, rfl⟩
  refine ((yields_nodeAt _).bind fun _ => hinitial).iff ?_
  rw [EntrySearchable, any_isDirectory_iff, and_imp]

/-- A directory is searched by looking it up and, if it is one, looking up the entries that it lists. -/
theorem modulesIn_eq_bind (w : World) (directory : Path) :
    w.modulesIn directory = w.nodeAt directory >>= fun node? =>
      if node?.any Node.isDirectory = true then
        ((w.listed directory).mapM fun name => w.initialAt (directory.entry name)).map
          (List.filterMap id)
      else .ok [] := by
  unfold modulesIn holds
  cases w.nodeAt directory with
  | error f => rfl
  | ok node? => rfl

/-- **A directory is searched** to its modules unless a path that is asked about is too long. -/
theorem yields_modulesIn (directory : Path) : w.Yields (w.Searchable directory)
    (w.modulesIn directory) ((w.listed directory).filterMap (w.moduleAt directory)) := by
  rw [modulesIn_eq_bind]
  have hentries : w.Yields (∀ name ∈ w.listed directory, w.EntrySearchable directory name)
      (if (w.node? directory).any Node.isDirectory = true then
        ((w.listed directory).mapM fun name => w.initialAt (directory.entry name)).map
          (List.filterMap id)
      else .ok []) ((w.listed directory).filterMap (w.moduleAt directory)) := by
    split
    · have hfound := (yields_mapM fun name (_ : name ∈ w.listed directory) =>
        yields_initialAt (w := w) directory name).map (List.filterMap id)
      rwa [List.filterMap_map, Function.id_comp] at hfound
    · -- What is no directory lists nothing.
      rename_i hother
      have hnone : w.listed directory = [] := by
        refine List.eq_nil_iff_forall_not_mem.mpr fun name hname => hother ?_
        exact any_isDirectory_iff.mpr (mem_listed_iff.mp hname).node?_eq
      rw [hnone]
      exact .inl ⟨by simp, rfl⟩
  refine ((yields_nodeAt _).bind fun _ => hentries).iff ?_
  simp only [mem_listed_iff]
  exact ⟨fun h => ⟨h.1, h.2⟩, fun h => ⟨h.itself, h.entries⟩⟩

/-- A directory with one entry, a module, is searched and has just this module. -/
theorem isModule_of_only {text : String} {place : Location} {node initial : Node}
    (htext : Files.fileName directory.text = .ok text)
    (hplace : w.files.resolve w.cwd .followed text = .ok (.found place .directory))
    (hnode : w.files.node? (place ++ [name]) = some node)
    (honly : ∀ n node, w.files.node? (place ++ [n]) = some node → n = name)
    (hdirectory : w.node? (directory.entry name) = some .directory) (hvisible : Visible name)
    (hinitial : w.node? (moduleFile directory name) = some initial) :
    w.Searchable directory ∧ ∀ n, w.IsModule directory n ↔ n = name := by
  have hlists (n : String) (h : w.Lists directory n) : n = name := by
    obtain ⟨text', place', node', htext', hplace', hnode'⟩ := h
    rw [htext] at htext'
    cases htext'
    rw [hplace] at hplace'
    cases hplace'
    exact honly n node' hnode'
  refine ⟨⟨not_tooLong_of_node? (node?_of_resolve htext hplace), fun n hn => ?_⟩, fun n =>
    ⟨fun h => hlists n h.listed, ?_⟩⟩
  · obtain rfl := hlists n hn
    exact ⟨not_tooLong_of_node? hdirectory, fun _ _ => not_tooLong_of_node? hinitial⟩
  · rintro rfl
    exact ⟨⟨text, place, node, htext, hplace, hnode⟩, hdirectory, hvisible, by rw [hinitial]; rfl⟩

end World

end CommandShell
