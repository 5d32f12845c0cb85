import CommandShell.Proofs.Files.Actions

/-! # Directories that are there

Making the directories of an absolute path ends with a directory there (`find_of_makeDirectories`), and
from then on it can be made again, which changes nothing (`run_makeDirectories_of_find`). Writing files
takes no directory away (`FileTree.find_of_write`). Where an absolute path leads is the same from every
working directory. -/

namespace CommandShell

namespace Path

/-- A path is **rooted** if its root is one that an absolute path starts with. -/
def IsRooted (p : Path) : Prop := rootOf p.root ≠ ""

instance (p : Path) : Decidable p.IsRooted := inferInstanceAs (Decidable (rootOf p.root ≠ ""))

/-- The root of a path is its own root. -/
theorem rootOf_rootOf (s : String) : rootOf (rootOf s) = rootOf s := by
  have hroot : rootOf s = "/" ∨ rootOf s = "//" ∨ rootOf s = "" := by
    unfold rootOf
    split <;> simp
  rcases hroot with hroot | hroot | hroot <;> rw [hroot] <;> rfl

/-- A path that was read is rooted if it is absolute. -/
theorem isRooted_ofText {t : RawText} (h : (ofText t).isAbsolute = true) : (ofText t).IsRooted := by
  have hroot : (ofText t).root = rootOf t.toString := rfl
  rw [IsRooted, hroot, rootOf_rootOf]
  exact bne_iff_ne.mp h

/-- The parent of an absolute path is absolute. -/
theorem IsRooted.parent {p : Path} (h : p.IsRooted) : p.parent.IsRooted := h

/-- The name of a rooted path starts at the root. -/
theorem IsRooted.rootOf_name {p : Path} (h : p.IsRooted) {name : String}
    (hname : Files.fileName p.text = .ok name) : rootOf name ≠ "" := by
  have hroot : p.root ≠ "" := by
    intro hempty
    rw [IsRooted, hempty] at h
    exact h rfl
  have htext : p.text = RawText.ofString p.root ++ RawText.intercalate "/" p.parts :=
    if_neg fun hp => hroot hp.1
  rw [htext] at hname
  obtain ⟨start, hstart, rfl⟩ := Files.fileName_of_append hname
  have hstart : start = p.root := by
    rw [← (Files.fileName_eq_ok_iff.mp hstart).2.1, RawText.toString_ofString]
  rw [hstart, Ne, rootOf_append hroot]
  exact h

end Path

namespace FileTree

variable {t t' : FileTree} {last : LastName} {links : Nat} {place l : Location} {cs : List String}
  {c : String} {d : Destination} {cwd : WorkingDirectory} {path : String}

/-! ## Where absolute paths lead -/

/-- An absolute path leads to the same place from everywhere, whatever is asked of its last name. -/
theorem resolve_cwd (hroot : Path.rootOf path ≠ "") (t : FileTree) (cwd cwd' : WorkingDirectory)
    (last : LastName) : t.resolve cwd last path = t.resolve cwd' last path := by
  unfold resolve
  rw [if_neg hroot, if_neg hroot]

/-- An absolute path is followed from the root, whatever is asked about it. -/
theorem leads_of_resolve (hroot : Path.rootOf path ≠ "") (h : t.resolve cwd last path = .ok d) :
    Leads t last maxLinks [] (Path.components path) d ∧
      ∀ {t' : FileTree} {last' : LastName} {d' : Destination},
        Leads t' last' maxLinks [] (Path.components path) d' → t'.resolve cwd last' path = .ok d' := by
  unfold resolve at h ⊢
  split at h
  · exact nomatch h
  rename_i hempty
  split at h
  · exact nomatch h
  rename_i hlong
  simp only [if_neg hempty, if_neg hlong, if_neg hroot]
  exact ⟨leads_of_walk h, walk_of_leads⟩

/-- What a path leads to when its last name is followed is there when it is kept. -/
theorem Leads.kept (h : Leads t .followed links place cs d) (hd : ∀ l c, d ≠ .free l c) :
    ∃ l' n, Leads t .kept links place cs (.found l' n) := by
  have hslash (rest : List String) : ¬(LastName.kept = .written ∧ isSlashed rest = true) :=
    fun h => nomatch h.1
  induction h with
  | here => exact ⟨_, _, .here⟩
  | skip hc _ ih =>
    obtain ⟨l', n, hl⟩ := ih hd
    exact ⟨l', n, .skip hc hl⟩
  | up _ ih =>
    obtain ⟨l', n, hl⟩ := ih hd
    exact ⟨l', n, .up hl⟩
  | free => exact absurd rfl (hd _ _)
  | file hc hnode => exact ⟨_, _, .file hc hnode⟩
  | enter hc hnode _ _ ih =>
    obtain ⟨l', n, hl⟩ := ih hd
    exact ⟨l', n, .enter hc hnode (hslash _) hl⟩
  | link _ _ hlast => exact nomatch hlast
  | @follow _ _ _ _ rest _ hc hnode _ _ _ ih =>
    -- A link at the end is kept; one on the way is followed.
    by_cases hrest : rest = []
    · subst hrest
      exact ⟨_, _, .link hc hnode rfl⟩
    · obtain ⟨l', n, hl⟩ := ih hd
      exact ⟨l', n, .follow hc hnode (hslash _) (fun h => hrest h.1) hl⟩

/-- A directory that is put under a free name is where the path leads from then on. -/
theorem Leads.put_directory (h : Leads t .kept links place cs d) (hd : d = .free l c) :
    Leads (t.put (l ++ [c]) .directory) .followed links place cs (.found (l ++ [c]) .directory) := by
  have hslash (rest : List String) : ¬(LastName.followed = .written ∧ isSlashed rest = true) :=
    fun h => nomatch h.1
  have hkept (rest : List String) : ¬(rest = [] ∧ LastName.followed = .kept) := fun h => nomatch h.2
  have hne : l ++ [c] ≠ [] := by simp
  -- What the path passes on its way stands elsewhere, since the name is free.
  have hother {l' : Location} {n : Node} (hfree : t.node? (l ++ [c]) = none)
      (hnode : t.node? l' = some n) : (t.put (l ++ [c]) .directory).node? l' = some n := by
    rw [node?_put t hne, if_neg, hnode]
    rintro rfl
    rw [hfree] at hnode
    exact nomatch hnode
  induction h with
  | here => exact nomatch hd
  | skip hc _ ih => exact .skip hc (ih hd)
  | up _ ih => exact .up (ih hd)
  | free hc hnode =>
    cases hd
    refine .enter hc ?_ (hslash []) .here
    rw [node?_put t hne, if_pos rfl]
  | file => exact nomatch hd
  | enter hc hnode _ h ih => exact .enter hc (hother (h.node?_free hd) hnode) (hslash _) (ih hd)
  | link => exact nomatch hd
  | follow hc hnode _ _ h ih =>
    exact .follow hc (hother (h.node?_free hd) hnode) (hslash _) (hkept _) (ih hd)

/-! ## Directories of the tree -/

/-- What is found at a path is where the path leads to. -/
theorem exists_resolve_of_find {node : Node} (h : t.find cwd path = .ok node) :
    ∃ d, t.resolve cwd .followed path = .ok d := by
  unfold find at h
  cases hresolve : t.resolve cwd .followed path with
  | error e =>
    rw [hresolve] at h
    exact nomatch h
  | ok d => exact ⟨d, rfl⟩

/-- An absolute path at which a directory is found leads to it from the root. -/
theorem leads_of_find_directory (hroot : Path.rootOf path ≠ "")
    (h : t.find cwd path = .ok .directory) :
    ∃ l, Leads t .followed maxLinks [] (Path.components path) (.found l .directory) := by
  unfold find at h
  split at h
  · exact nomatch h
  · rename_i l node hresolve
    cases h
    exact ⟨l, (leads_of_resolve hroot hresolve).1⟩
  · exact nomatch h
  · rename_i lost hresolve
    -- From the root no path leads to a lost directory.
    exact absurd rfl ((leads_of_resolve hroot hresolve).1.ne_lost lost)

/-- Making a directory makes it: what was a free name leads to a directory. -/
theorem find_of_makeDirectory (hroot : Path.rootOf path ≠ "")
    (h : t.makeDirectory cwd path = .ok t') : t'.find cwd path = .ok .directory := by
  unfold makeDirectory makeNode at h
  split at h
  · cases h
  · rename_i l c hresolve
    cases h
    obtain ⟨hleads, hback⟩ := leads_of_resolve hroot hresolve
    rw [find, hback (hleads.put_directory rfl)]
  · cases h

/-- A directory that is there cannot be made again. -/
theorem makeDirectory_of_find (h : t.find cwd path = .ok .directory) :
    t.makeDirectory cwd path = .error .occupied := by
  obtain ⟨d, hresolve⟩ := exists_resolve_of_find h
  unfold find at h
  rw [hresolve] at h
  unfold makeDirectory makeNode
  obtain ⟨e, rfl⟩ | ⟨place, cs, hleads, hback⟩ := resolve_start hresolve
  · rw [resolve_lost hresolve t .kept]
  · cases d with
    | free l c => cases h
    | lost e => exact absurd rfl (hleads.ne_lost e)
    | found l node =>
      obtain ⟨l', n, hkept⟩ := hleads.kept (fun _ _ => Destination.noConfusion)
      rw [hback hkept]

/-- Writing puts a file where the tree takes one. -/
theorem exists_put_of_write {update : Option Content → Content} (h : t.write cwd path update = .ok t') :
    ∃ place content, t.TakesFile place ∧ t' = t.put place (.file content) := by
  unfold write at h
  split at h
  · exact nomatch h
  · rename_i hresolve
    cases h
    obtain ⟨e, he⟩ | ⟨_, _, hleads, _⟩ := resolve_start hresolve
    · exact nomatch he
    exact ⟨_, _, hleads.takesFile_file, rfl⟩
  · rename_i hresolve
    cases h
    obtain ⟨e, he⟩ | ⟨_, _, hleads, _⟩ := resolve_start hresolve
    · exact nomatch he
    exact ⟨_, _, hleads.takesFile_free, rfl⟩
  · exact nomatch h

/-- Writing a file takes no directory away. -/
theorem find_of_write {file : String} {update : Option Content → Content}
    (h : t.write cwd file update = .ok t') (hroot : Path.rootOf path ≠ "")
    (hfind : t.find cwd path = .ok .directory) : t'.find cwd path = .ok .directory := by
  obtain ⟨place, content, hplace, rfl⟩ := exists_put_of_write h
  obtain ⟨l, hleads⟩ := leads_of_find_directory hroot hfind
  have hput := hleads.put hplace content
  obtain ⟨d, hresolve⟩ := exists_resolve_of_find hfind
  rw [find, (leads_of_resolve hroot hresolve).2 hput]
  rfl

end FileTree

namespace Files

variable {w w' : World} {path : Path} {name : String}

/-! ## Asking -/

/-- A path at which something is found reaches something. -/
theorem run_reaches_of_find {node : Node} (hname : fileName path.text = .ok name)
    (h : w.files.find w.cwd name = .ok node) : (reaches path).run w = .ok true w := by
  unfold reaches
  rw [Shell.run_bind_ok (EStateM.run_get w), hname]
  simp only [h]
  rfl

/-- A path on which the files give an error reaches nothing. -/
theorem run_reaches_of_error {e : Errno} (hname : fileName path.text = .ok name)
    (h : w.files.find w.cwd name = .error e) : (reaches path).run w = .ok false w := by
  unfold reaches
  rw [Shell.run_bind_ok (EStateM.run_get w), hname]
  simp only [h]
  rfl

/-! ## Making directories -/

/-- A path that is told to be that of a directory is so, and asking changed nothing. -/
theorem find_of_isDirectory (hname : fileName path.text = .ok name)
    (h : (isDirectory path).run w = .ok true w') :
    w' = w ∧ w.files.find w.cwd name = .ok .directory := by
  unfold isDirectory ask at h
  rw [hname] at h
  simp only at h
  rw [Shell.run_bind_ok (EStateM.run_get w)] at h
  cases hfind : w.files.find w.cwd name with
  | error e =>
    rw [hfind] at h
    simp only [Except.map] at h
    split at h
    · exact nomatch h
    · exact nomatch h
  | ok node =>
    rw [hfind] at h
    cases node with
    | directory =>
      cases h
      exact ⟨rfl, rfl⟩
    | file content => exact nomatch h
    | link target => exact nomatch h

/-- Behind an absolute path stands a directory once it was made. -/
theorem find_of_makeDirectory (hroot : path.IsRooted) (hname : fileName path.text = .ok name)
    (h : (makeDirectory path).run w = .ok () w') : w'.files.find w'.cwd name = .ok .directory := by
  unfold makeDirectory at h
  obtain ⟨f, hfault⟩ | ⟨name', files, hname', hmake, hrun⟩ := change_cases path FileTree.makeDirectory w
  · -- A fault is passed over only where the directory is there already.
    rw [Shell.run_catch_error hfault] at h
    split at h
    · exact nomatch h
    · rename_i f hf
      cases hthere : (isDirectory path).run w with
      | error f' w₁ =>
        rw [Shell.run_bind_error hthere] at h
        exact nomatch h
      | ok there w₁ =>
        rw [Shell.run_bind_ok hthere] at h
        cases there with
        | false => exact nomatch h
        | true =>
          cases h
          obtain ⟨rfl, hfind⟩ := find_of_isDirectory hname hthere
          exact hfind
    · exact nomatch h
  · rw [Shell.run_catch_ok hrun] at h
    cases h
    obtain rfl : name' = name := Except.ok.inj (hname'.symm.trans hname)
    exact FileTree.find_of_makeDirectory (hroot.rootOf_name hname) hmake

/-- **Making the directories of a path** ends with a directory there. -/
theorem find_of_makeDirectories (hroot : path.IsRooted) (hname : fileName path.text = .ok name)
    (h : (makeDirectories path).run w = .ok () w') : w'.files.find w'.cwd name = .ok .directory := by
  unfold makeDirectories at h
  cases hfirst : (makeDirectory path).run w with
  | ok u w₁ =>
    rw [Shell.run_catch_ok hfirst] at h
    cases h
    exact find_of_makeDirectory hroot hname hfirst
  | error f w₁ =>
    rw [Shell.run_catch_error hfirst] at h
    split at h
    · split at h
      · cases h
      · -- The directories above are made first, and then the directory itself.
        cases habove : (makeDirectories path.parent).run w₁ with
        | error f' w₂ =>
          rw [Shell.run_bind_error habove] at h
          cases h
        | ok u w₂ =>
          rw [Shell.run_bind_ok habove] at h
          exact find_of_makeDirectory hroot hname h
    · cases h

/-- A path of which directories are made names a file. -/
theorem exists_fileName_of_makeDirectories (h : (makeDirectories path).run w = .ok () w') :
    ∃ name, fileName path.text = .ok name := by
  cases hname : fileName path.text with
  | ok name => exact ⟨name, rfl⟩
  | error f =>
    -- The fault says what is wrong with the text, and nothing recovers from that.
    have hfault : f = .nulInPath ∨ ∃ flaw, f = .unencodable flaw := by
      unfold fileName at hname
      split at hname
      · exact .inr ⟨_, (Except.error.inj hname).symm⟩
      · simp only at hname
        split at hname
        · exact .inl (Except.error.inj hname).symm
        · exact nomatch hname
    have hchange : (change path FileTree.makeDirectory).run w = .error f w := by
      unfold change query
      rw [hname]
      rfl
    have hmake : (makeDirectory path).run w = .error f w := by
      unfold makeDirectory
      rw [Shell.run_catch_error hchange]
      rcases hfault with rfl | ⟨flaw, rfl⟩
      · rfl
      · rfl
    unfold makeDirectories at h
    rw [Shell.run_catch_error hmake] at h
    rcases hfault with rfl | ⟨flaw, rfl⟩
    · exact nomatch h
    · exact nomatch h

/-- Where a directory is there, the directories of its path can be made again, and nothing changes. -/
theorem run_makeDirectories_of_find (hname : fileName path.text = .ok name)
    (h : w.files.find w.cwd name = .ok .directory) : (makeDirectories path).run w = .ok () w := by
  have hmake := FileTree.makeDirectory_of_find h
  unfold makeDirectories
  exact Shell.run_catch_ok (run_makeDirectory_of_occupied hname hmake h) _

end Files

end CommandShell
