import CommandShell.Proofs.Files.Replacing

/-! # What stands in a directory

A path may lead to a directory through links, by steps up, and from a working directory (`World.LeadsTo`).
What the path with one more name leads to is what stands in the directory under that name
(`FileTree.resolve_of_child`), and it is followed from there through the links that are left
(`FileTree.resolve_child`). So it is told of what stands there whether it is there, and whether it is a link,
unless a name on the way is too long (`Files.isThere_cases`). A link can be made there, also in the place of
an entry that is removed: then nothing else changes, and the path leads to the directory still
(`World.LeadsTo.linked_of_makeLink`, `World.LeadsTo.linked_of_replace`). -/

namespace CommandShell

namespace Path

/-- A path is **proper** if its root is one that a path starts with. -/
def IsProper (p : Path) : Prop := rootOf p.root = p.root

/-- A proper path is relative, or its root is a slash with at most one other in front of it. -/
theorem IsProper.root_cases {p : Path} (h : p.IsProper) :
    p.root = "" ∨ ∃ start, (start = "" ∨ start = "/") ∧ p.root = start ++ "/" := by
  rw [← h]
  unfold rootOf
  split
  · exact .inr ⟨"", .inl rfl, rfl⟩
  · exact .inr ⟨"/", .inr rfl, rfl⟩
  · exact .inr ⟨"", .inl rfl, rfl⟩
  · exact .inl rfl

end Path

namespace FileTree

variable {t t' : FileTree} {last : LastName} {links k : Nat} {place l : Location} {cs : List String}
  {c n name child path : String} {d : Destination} {cwd : WorkingDirectory} {directory : Path} {node : Node}

/-- What leads to a free name leads there in a larger tree, or to what stands under the name. -/
theorem Leads.of_above (h : Leads t' .kept links place cs d) (hd : d = .free l c) (ht : t'.Below t) :
    ∃ d', Leads t .kept links place cs d' ∧ (d' = .free l c ∨ ∃ node, d' = .found (l ++ [c]) node) := by
  have hslash (rest : List String) : ¬(LastName.kept = .written ∧ isSlashed rest = true) :=
    fun h => nomatch h.1
  induction h with
  | here => cases hd
  | skip hc _ ih =>
    obtain ⟨d', hl, hd'⟩ := ih hd
    exact ⟨d', .skip hc hl, hd'⟩
  | up _ ih =>
    obtain ⟨d', hl, hd'⟩ := ih hd
    exact ⟨d', .up hl, hd'⟩
  | free hc _ =>
    cases hd
    -- Only here the larger tree can differ: the name need not be free in it.
    cases hnode : t.node? (l ++ [c]) with
    | none => exact ⟨_, .free hc hnode, .inl rfl⟩
    | some node =>
      refine ⟨_, ?_, .inr ⟨node, rfl⟩⟩
      cases node with
      | directory => exact .enter hc hnode (hslash _) .here
      | file content => exact .file hc hnode
      | link target => exact .link hc hnode rfl
  | file => cases hd
  | enter hc hnode _ _ ih =>
    obtain ⟨d', hl, hd'⟩ := ih hd
    exact ⟨d', .enter hc (ht _ _ hnode) (hslash _) hl, hd'⟩
  | link => cases hd
  | follow hc hnode _ hkept _ ih =>
    obtain ⟨d', hl, hd'⟩ := ih hd
    exact ⟨d', .follow hc (ht _ _ hnode) (hslash _) hkept hl, hd'⟩

/-- Where a path leads to a free name, in a tree that grew it leads to this name, taken or still free. -/
theorem resolve_of_above (h : t'.resolve cwd .kept path = .ok (.free l c)) (ht : t'.Below t) :
    ∃ d, t.resolve cwd .kept path = .ok d ∧ (d = .free l c ∨ ∃ node, d = .found (l ++ [c]) node) := by
  obtain ⟨e, he⟩ | ⟨place, cs, hleads, hback⟩ := resolve_start h
  · cases he
  · obtain ⟨d, hl, hd⟩ := hleads.of_above rfl ht
    exact ⟨d, hback hl, hd⟩

/-! ## One more name -/

/-- The name of a path with one more component. -/
theorem name_child (hproper : directory.IsProper) (hn : IsEntryName n)
    (hname : Files.fileName directory.text = .ok name)
    (hchild : Files.fileName (directory.child n).text = .ok child) :
    child = name ++ "/" ++ n ∨ (name = "." ∧ child = n) ∨
      ∃ start, (start = "" ∨ start = "/") ∧ name = start ++ "/" ∧ child = start ++ "/" ++ n := by
  rw [Path.child_of_isEntryName hn] at hchild
  have htext := (Files.fileName_eq_ok_iff.mp hname).2.1
  have hchildText := (Files.fileName_eq_ok_iff.mp hchild).2.1
  -- A path without parts is written by its root alone, which may be a blank one.
  by_cases hparts : directory.parts = []
  · have hbare : (Path.mk directory.root (directory.parts ++ [RawText.ofString n])).text
        = RawText.ofString directory.root ++ RawText.ofString n := by
      rw [Path.text, if_neg (by simp), hparts]
      simp only [RawText.intercalate, List.nil_append, List.map_singleton, List.intercalate_singleton]
    rw [hbare, RawText.toString_append, RawText.toString_ofString, RawText.toString_ofString] at hchildText
    obtain hroot | ⟨start, hstart, hroot⟩ := hproper.root_cases
    · rw [Path.text, if_pos ⟨hroot, hparts⟩] at htext
      rw [hroot] at hchildText
      refine .inr (.inl ⟨htext.symm, ?_⟩)
      rw [← hchildText, String.empty_append]
    · have hne : directory.root ≠ "" := by
        rw [hroot]
        intro hempty
        obtain rfl | rfl := hstart
        · exact absurd hempty (by decide)
        · exact absurd hempty (by decide)
      rw [Path.text, if_neg fun h => hne h.1, hparts, RawText.toString_append, RawText.toString_ofString]
        at htext
      have hname : name = directory.root := htext.symm.trans (String.append_empty)
      refine .inr (.inr ⟨start, hstart, hname.trans hroot, ?_⟩)
      rw [← hchildText, hroot]
  · rw [Path.text_concat hparts] at hchildText
    simp only [RawText.toString_append, RawText.toString_ofString, htext] at hchildText
    exact .inl hchildText.symm

/-- A single component is no absolute path. -/
theorem IsEntryName.components (hn : IsEntryName n) : Path.rootOf n = "" ∧ Path.components n = [n] := by
  obtain ⟨-, hslash⟩ := hn
  constructor
  · unfold Path.rootOf
    split
    · rename_i h
      exact absurd (h ▸ List.mem_cons_self) hslash
    · rename_i h
      exact absurd (h ▸ List.mem_cons_self) hslash
    · rename_i h
      exact absurd (h ▸ List.mem_cons_self) hslash
    · rfl
  · have hplain : ∀ c ∈ n.toList, (c == '/') = false := by
      intro c hc
      refine beq_false_of_ne ?_
      rintro rfl
      exact hslash hc
    rw [Path.components, Text.splitWhere_of_forall hplain, List.map_singleton, String.ofList_toList]

/-- Paths that lead somewhere are not empty, and not too long. -/
theorem bounds_of_resolve (h : t.resolve cwd last path = .ok d) :
    path ≠ "" ∧ ¬pathLimit ≤ path.utf8ByteSize := by
  unfold resolve at h
  split at h
  · cases h
  rename_i hempty
  split at h
  · cases h
  rename_i hlong
  exact ⟨hempty, hlong⟩

/-- The path of the root leads there. -/
theorem resolve_root (t : FileTree) (cwd : WorkingDirectory) (last : LastName) {start : String}
    (hstart : start = "" ∨ start = "/") :
    Path.rootOf (start ++ "/") ≠ "" ∧
      t.resolve cwd last (start ++ "/") = .ok (.found [] .directory) := by
  obtain rfl | rfl := hstart
  · have hleads : Leads t last maxLinks [] ["", ""] (.found [] .directory) :=
      .skip (.inl rfl) (.skip (.inl rfl) .here)
    exact ⟨by decide, walk_of_leads hleads⟩
  · have hleads : Leads t last maxLinks [] ["", "", ""] (.found [] .directory) :=
      .skip (.inl rfl) (.skip (.inl rfl) (.skip (.inl rfl) .here))
    exact ⟨by decide, walk_of_leads hleads⟩

/-- The empty text and a single slash lead no further than the root. -/
theorem leads_root (t : FileTree) {start : String} (hstart : start = "" ∨ start = "/") :
    Leads t .followed maxLinks [] (Path.components start) (.found [] .directory) := by
  obtain rfl | rfl := hstart
  · exact (.skip (.inl rfl) .here : Leads t _ _ _ [""] _)
  · exact (.skip (.inl rfl) (.skip (.inl rfl) .here) : Leads t _ _ _ ["", ""] _)

/-- **What a path with one more name leads to** is what stands under that name in the directory that the path
leads to. -/
theorem resolve_of_child (hproper : directory.IsProper) (hn : IsEntryName n)
    (hname : Files.fileName directory.text = .ok name) (hempty : name ≠ "")
    (hchild : Files.fileName (directory.child n).text = .ok child)
    (h : t.resolve cwd .kept child = .ok d) :
    ∃ l, t.resolve cwd .followed name = .ok (.found l .directory) ∧
      (d = .free l n ∧ t.node? (l ++ [n]) = none ∨
        ∃ node, d = .found (l ++ [n]) node ∧ t.node? (l ++ [n]) = some node) := by
  obtain rfl | ⟨rfl, rfl⟩ | ⟨start, hstart, rfl, rfl⟩ := name_child hproper hn hname hchild
  · obtain ⟨place, cs, hleads, hback⟩ := resolve_child_start hn.1 hn.2 hempty h
    obtain ⟨l, hl, hd⟩ := hleads.split rfl hn.1
    exact ⟨l, hback hl, hd⟩
  · -- The working directory itself.
    obtain ⟨hne, hlong⟩ := bounds_of_resolve h
    obtain ⟨hroot, hcomponents⟩ := hn.components
    rw [resolve, if_neg hne, if_neg hlong, if_pos hroot, hcomponents] at h
    by_cases hthere : cwd.lost = 0
    · rw [walkOut_of_there hthere] at h
      obtain ⟨l, hl, hd⟩ := (leads_of_walk h).split (List.nil_append _).symm hn.1
      refine ⟨l, ?_, hd⟩
      rw [resolve, if_neg (by decide), if_neg (by decide), if_pos (by decide)]
      show t.walkOut .followed cwd ["."] = _
      rw [walkOut_of_there hthere]
      exact walk_of_leads (.skip (.inr rfl) hl)
    · rw [walkOut, if_neg hthere, if_neg hn.1.1, if_neg hn.1.2.1] at h
      cases h
  · -- The root, behind which only blank components stand.
    obtain ⟨hroot, hleads⟩ := resolve_root t cwd .followed hstart
    have hrooted : Path.rootOf (start ++ "/" ++ n) ≠ "" := mt (Path.rootOf_append hempty n).mp hroot
    have hsplit := (leads_of_resolve hrooted h).1
    rw [Path.components_append hn.2] at hsplit
    obtain ⟨l, hl, hd⟩ := hsplit.split rfl hn.1
    cases hl.unique (leads_root t hstart)
    exact ⟨[], hleads, hd⟩

/-- From where components lead to a directory, others are followed through at most as many links. -/
theorem Leads.walk_append (h : Leads t .followed links place cs d) (hd : d = .found l .directory) :
    ∃ left ≤ links, ∀ last, last ≠ .written → ∀ c rest,
      t.walk last links place (cs ++ c :: rest) = t.walk last left l (c :: rest) := by
  induction h with
  | @here links =>
    cases hd
    exact ⟨links, le_refl _, fun _ _ _ _ => rfl⟩
  | skip hc _ ih =>
    obtain ⟨left, hleft, hwalk⟩ := ih hd
    refine ⟨left, hleft, fun last hlast c rest => ?_⟩
    rw [List.cons_append, walk, if_pos hc, hwalk last hlast]
  | up _ ih =>
    obtain ⟨left, hleft, hwalk⟩ := ih hd
    refine ⟨left, hleft, fun last hlast c rest => ?_⟩
    rw [List.cons_append, walk, if_neg (by decide), if_pos rfl, hwalk last hlast]
  | free => cases hd
  | file => cases hd
  | enter hc hnode _ _ ih =>
    obtain ⟨left, hleft, hwalk⟩ := ih hd
    refine ⟨left, hleft, fun last hlast c rest => ?_⟩
    rw [List.cons_append, walk_name hc fun h => hlast h.1, hnode]
    exact hwalk last hlast c rest
  | link _ _ hlast => cases hlast
  | follow hc hnode _ _ _ ih =>
    obtain ⟨left, hleft, hwalk⟩ := ih hd
    -- Following a link uses one of those that are left.
    refine ⟨left, Nat.le_succ_of_le hleft, fun last hlast c rest => ?_⟩
    rw [List.cons_append, walk_name hc fun h => hlast h.1, hnode]
    have hrest := hwalk last hlast c rest
    rw [List.append_assoc] at hrest
    exact (if_neg fun h => by simp at h).trans hrest

/-- A way that leads to a directory leads on from there, with the links that are left. -/
theorem walkOut_append (h : t.walkOut .followed cwd cs = .ok (.found l .directory)) :
    ∃ left ≤ maxLinks, ∀ last, last ≠ .written → ∀ c rest,
      t.walkOut last cwd (cs ++ c :: rest) = t.walk last left l (c :: rest) := by
  induction cs generalizing cwd with
  | nil =>
    by_cases hthere : cwd.lost = 0
    · rw [walkOut_of_there hthere, walk] at h
      cases h
      refine ⟨maxLinks, le_refl _, fun last _ c rest => ?_⟩
      rw [List.nil_append, walkOut_of_there hthere]
    · rw [walkOut, if_neg hthere] at h
      cases h
  | cons c cs ih =>
    by_cases hthere : cwd.lost = 0
    · rw [walkOut_of_there hthere] at h
      obtain ⟨left, hleft, hwalk⟩ := (leads_of_walk h).walk_append rfl
      refine ⟨left, hleft, fun last hlast c rest => ?_⟩
      rw [walkOut_of_there hthere]
      exact hwalk last hlast c rest
    -- From a lost directory only blank components and steps up lead out.
    rw [walkOut, if_neg hthere] at h
    by_cases hblank : c = "" ∨ c = "."
    · rw [if_pos hblank] at h
      obtain ⟨left, hleft, hwalk⟩ := ih h
      refine ⟨left, hleft, fun last hlast c' rest => ?_⟩
      rw [List.cons_append, walkOut, if_neg hthere, if_pos hblank, hwalk last hlast]
    rw [if_neg hblank] at h
    by_cases hup : c = ".."
    · rw [if_pos hup] at h
      obtain ⟨left, hleft, hwalk⟩ := ih h
      refine ⟨left, hleft, fun last hlast c' rest => ?_⟩
      rw [List.cons_append, walkOut, if_neg hthere, if_neg hblank, if_pos hup, hwalk last hlast]
    · rw [if_neg hup] at h
      cases h

/-- **From the directory that a path leads to** one more name is followed through the links that are left. -/
theorem resolve_child (hproper : directory.IsProper) (hn : IsEntryName n)
    (hname : Files.fileName directory.text = .ok name)
    (hchild : Files.fileName (directory.child n).text = .ok child)
    (hlong : ¬pathLimit ≤ child.utf8ByteSize)
    (h : t.resolve cwd .followed name = .ok (.found l .directory)) :
    ∃ left ≤ maxLinks, ∀ last, last ≠ .written → t.resolve cwd last child = t.walk last left l [n] := by
  obtain ⟨hempty, hshort⟩ := bounds_of_resolve h
  rw [resolve, if_neg hempty, if_neg hshort] at h
  obtain rfl | ⟨rfl, rfl⟩ | ⟨start, hstart, rfl, rfl⟩ := name_child hproper hn hname hchild
  · have hne : name ++ "/" ++ n ≠ "" := fun hnone => hempty (by simp_all)
    have hroot : Path.rootOf (name ++ "/" ++ n) = "" ↔ Path.rootOf name = "" := by
      rw [String.append_assoc]
      exact Path.rootOf_append hempty _
    by_cases hrelative : Path.rootOf name = ""
    · rw [if_pos hrelative] at h
      obtain ⟨left, hleft, hwalk⟩ := walkOut_append h
      refine ⟨left, hleft, fun last hlast => ?_⟩
      rw [resolve, if_neg hne, if_neg hlong, if_pos (hroot.mpr hrelative), Path.components_append hn.2]
      exact hwalk last hlast n []
    · rw [if_neg hrelative] at h
      obtain ⟨left, hleft, hwalk⟩ := (leads_of_walk h).walk_append rfl
      refine ⟨left, hleft, fun last hlast => ?_⟩
      rw [resolve, if_neg hne, if_neg hlong, if_neg (mt hroot.mp hrelative), Path.components_append hn.2]
      exact hwalk last hlast n []
  · -- The working directory itself.
    obtain ⟨hroot, hcomponents⟩ := hn.components
    have hne : child ≠ "" := fun hblank => hn.1.1 (.inl hblank)
    rw [if_pos (by decide)] at h
    obtain ⟨left, hleft, hwalk⟩ := walkOut_append h
    refine ⟨left, hleft, fun last hlast => ?_⟩
    rw [resolve, if_neg hne, if_neg hlong, if_pos hroot, hcomponents, ← hwalk last hlast child []]
    show t.walkOut last cwd [child] = t.walkOut last cwd ["." , child]
    by_cases hthere : cwd.lost = 0
    · rw [walkOut_of_there hthere, walkOut_of_there hthere]
      exact (by rw [walk, if_pos (.inr rfl)] : t.walk last maxLinks cwd.place ["." , child] = _).symm
    · exact (by rw [walkOut, if_neg hthere, if_pos (.inr rfl)] : t.walkOut last cwd ["." , child] = _).symm
  · -- The root, behind which only blank components stand.
    obtain ⟨hroot, hleads⟩ := resolve_root t cwd .followed hstart
    rw [resolve, if_neg hempty, if_neg hshort] at hleads
    cases h.symm.trans hleads
    have hrooted : Path.rootOf (start ++ "/" ++ n) ≠ "" := mt (Path.rootOf_append hempty n).mp hroot
    have hne : start ++ "/" ++ n ≠ "" := fun hnone => hrooted (by rw [hnone]; rfl)
    obtain ⟨left, hleft, hwalk⟩ := (leads_root t hstart).walk_append rfl
    refine ⟨left, hleft, fun last hlast => ?_⟩
    rw [resolve, if_neg hne, if_neg hlong, if_neg hrooted, Path.components_append hn.2]
    exact hwalk last hlast n []

/-- **With fewer links left** components lead to the same destination, or the links run out. -/
theorem Leads.walk_of_fewer (h : Leads t last links place cs d) (hk : k ≤ links) :
    t.walk last k place cs = .ok d ∨ t.walk last k place cs = .error .linkLoop := by
  have hend : ¬(last = .written ∧ isSlashed [] = true) := fun h => nomatch h.2
  induction h generalizing k with
  | here => exact .inl (walk_of_leads .here)
  | skip hc _ ih =>
    rw [walk, if_pos hc]
    exact ih hk
  | up _ ih =>
    rw [walk, if_neg (by decide), if_pos rfl]
    exact ih hk
  | free hc hnode => exact .inl (walk_of_leads (.free hc hnode))
  | file hc hnode => exact .inl (walk_of_leads (.file hc hnode))
  | enter hc hnode hslash _ ih =>
    rw [walk_name hc hslash, hnode]
    exact ih hk
  | link hc hnode hlast => exact .inl (walk_of_leads (.link hc hnode hlast))
  | follow hc hnode hslash hkept _ ih =>
    rw [walk_name hc hslash, hnode]
    simp only [if_neg hkept]
    cases k with
    | zero => exact .inr rfl
    | succ k => exact ih (Nat.le_of_succ_le_succ hk)

/-- Where nothing is to be written, following components fails because nothing is there, or because a name is
too long. -/
theorem eq_of_walk_error {e : Errno} (h : t.walk .followed links place cs = .error e) :
    Files.meansAbsent e = true ∨ e = .nameTooLong := by
  generalize hlast : LastName.followed = last at h
  fun_induction walk t last links place cs with
  | case1 => cases h
  | case2 _ _ _ _ _ ih => exact ih h
  | case3 _ _ _ _ ih => exact ih h
  | case4 _ _ _ _ _ _ hslash =>
    subst hlast
    cases hslash.1
  | case5 =>
    cases h
    exact .inr rfl
  | case6 => cases h
  | case7 =>
    cases h
    exact .inl rfl
  | case8 _ _ _ _ _ _ _ _ _ ih => exact ih h
  | case9 => cases h
  | case10 =>
    cases h
    exact .inl rfl
  | case11 => cases h
  | case12 =>
    cases h
    exact .inl rfl
  | case13 _ _ _ _ _ _ _ _ _ _ _ _ ih => exact ih h

/-- A way that ends with an error finds nothing there, or something on it is too long. -/
theorem eq_of_walkOut_error {e : Errno} (h : t.walkOut .followed cwd cs = .error e) :
    Files.meansAbsent e = true ∨ e = .nameTooLong := by
  induction cs generalizing cwd with
  | nil => cases h
  | cons c cs ih =>
    rw [walkOut] at h
    split at h
    · exact eq_of_walk_error h
    split at h
    · exact ih h
    split at h
    · exact ih h
    · cases h
      exact .inl rfl

/-- A search that ends with an error finds nothing there, or something on the way is too long. -/
theorem eq_of_find_error {e : Errno} (h : t.find cwd path = .error e) :
    Files.meansAbsent e = true ∨ e = .nameTooLong := by
  unfold find at h
  split at h
  · rename_i hresolve
    cases h
    unfold resolve at hresolve
    split at hresolve
    · cases hresolve
      exact .inl rfl
    split at hresolve
    · cases hresolve
      exact .inr rfl
    split at hresolve
    · exact eq_of_walkOut_error hresolve
    · exact eq_of_walk_error hresolve
  · cases h
  · cases h
    exact .inl rfl
  · cases h

end FileTree

/-! ## Asking about entries -/

/-- A path **leads to** the directory at a location. -/
def World.LeadsTo (w : World) (path : Path) (l : Location) : Prop :=
  ∃ name, Files.fileName path.text = .ok name ∧
    w.files.resolve w.cwd .followed name = .ok (.found l .directory)

/-- A path **fits** if it names a file and is not too long. -/
def Path.Fits (p : Path) : Prop :=
  ∃ name, Files.fileName p.text = .ok name ∧ ¬FileTree.pathLimit ≤ name.utf8ByteSize

/-- Whether a path leads to anything is not told only if a name on the way is too long. -/
theorem Files.isThere_cases (path : Path) (w : World) :
    (∃ there, (isThere path).run w = .ok there w) ∨
      (isThere path).run w = .error (.system .nameTooLong [path.text]) w := by
  cases hname : fileName path.text with
  | error f =>
    refine .inl ⟨false, ?_⟩
    unfold isThere ask
    rw [hname]
    rfl
  | ok name =>
    cases hfind : w.files.find w.cwd name with
    | ok node => exact .inl ⟨true, run_ask_ok hname (by rw [hfind]; rfl)⟩
    | error e =>
      obtain habsent | rfl := FileTree.eq_of_find_error hfind
      · exact .inl ⟨false, run_ask_absent hname (by rw [hfind]; rfl) habsent⟩
      · exact .inr (run_ask_fault hname (by rw [hfind]; rfl) rfl)

namespace World

variable {w w' u : World} {directory path : Path} {l l' : Location} {n : String} {node : Node}

/-- The path of an entry fits. -/
theorem HasEntry.fits (h : w.HasEntry directory n) : (directory.child n).Fits := by
  obtain ⟨name, d, hname, hresolve, -⟩ := h
  exact ⟨name, hname, (FileTree.bounds_of_resolve hresolve).2⟩

/-- A path leads to one directory only. -/
theorem LeadsTo.unique (h : w.LeadsTo path l) (h' : w.LeadsTo path l') : l = l' := by
  obtain ⟨name, hname, hl⟩ := h
  obtain ⟨name', hname', hl'⟩ := h'
  cases hname.symm.trans hname'
  cases hl.symm.trans hl'
  rfl

/-- In a larger tree a path leads to the same directory. -/
theorem LeadsTo.of_below (h : w.LeadsTo path l) (hfiles : w.files.Below u.files) (hcwd : u.cwd = w.cwd) :
    u.LeadsTo path l := by
  obtain ⟨name, hname, hl⟩ := h
  refine ⟨name, hname, ?_⟩
  rw [hcwd]
  exact FileTree.resolve_of_below hl hfiles trivial

/-- An entry of the directory is a node in it. -/
theorem LeadsTo.node_of_hasEntry (h : w.LeadsTo directory l) (hproper : directory.IsProper)
    (hn : FileTree.IsEntryName n) (hentry : w.HasEntry directory n) :
    ∃ node, w.files.node? (l ++ [n]) = some node := by
  obtain ⟨name, hname, hl⟩ := h
  obtain ⟨child, d, hchild, hresolve, hd⟩ := hentry
  obtain ⟨l', hl', ⟨rfl, -⟩ | ⟨node, -, hnode⟩⟩ := FileTree.resolve_of_child hproper hn hname
    (FileTree.bounds_of_resolve hl).1 hchild hresolve
  · exact hd.elim
  · cases hl.symm.trans hl'
    exact ⟨node, hnode⟩

/-- **Whether a node in the directory is a link** is told. -/
theorem LeadsTo.run_isLink (h : w.LeadsTo directory l) (hproper : directory.IsProper)
    (hn : FileTree.IsEntryName n) (hfits : (directory.child n).Fits)
    (hnode : w.files.node? (l ++ [n]) = some node) :
    (Files.isLink (directory.child n)).run w = .ok node.isLink w := by
  obtain ⟨name, hname, hl⟩ := h
  obtain ⟨child, hchild, hlong⟩ := hfits
  obtain ⟨left, -, hwalk⟩ := FileTree.resolve_child hproper hn hname hchild hlong hl
  have hslash : ¬(LastName.kept = .written ∧ FileTree.isSlashed [] = true) := fun h => nomatch h.2
  have hresolve : w.files.resolve w.cwd .kept child = .ok (.found (l ++ [n]) node) := by
    rw [hwalk .kept (by decide), FileTree.walk_name hn.1 hslash, hnode]
    cases node with
    | directory => exact FileTree.walk_of_leads .here
    | file content => rfl
    | link target => rfl
  refine Files.run_ask_ok hchild ?_
  rw [hresolve]
  cases node with
  | directory => rfl
  | file content => rfl
  | link target => rfl

/-- What is no link in the directory is found. -/
theorem LeadsTo.find_child {child : String} (h : w.LeadsTo directory l) (hproper : directory.IsProper)
    (hn : FileTree.IsEntryName n) (hchild : Files.fileName (directory.child n).text = .ok child)
    (hlong : ¬FileTree.pathLimit ≤ child.utf8ByteSize)
    (hnode : w.files.node? (l ++ [n]) = some node) (hlink : ∀ target, node ≠ .link target) :
    w.files.find w.cwd child = .ok node := by
  obtain ⟨name, hname, hl⟩ := h
  obtain ⟨left, -, hwalk⟩ := FileTree.resolve_child hproper hn hname hchild hlong hl
  have hslash : ¬(LastName.followed = .written ∧ FileTree.isSlashed [] = true) := fun h => nomatch h.2
  have hresolve : w.files.resolve w.cwd .followed child = .ok (.found (l ++ [n]) node) := by
    rw [hwalk .followed (by decide), FileTree.walk_name hn.1 hslash, hnode]
    cases node with
    | directory => exact FileTree.walk_of_leads .here
    | file content => rfl
    | link target => exact absurd rfl (hlink target)
  rw [FileTree.find, hresolve]

/-- A file or a directory inside is told to be there. -/
theorem LeadsTo.run_isThere (h : w.LeadsTo directory l) (hproper : directory.IsProper)
    (hn : FileTree.IsEntryName n) (hfits : (directory.child n).Fits)
    (hnode : w.files.node? (l ++ [n]) = some node) (hlink : ∀ target, node ≠ .link target) :
    (Files.isThere (directory.child n)).run w = .ok true w := by
  obtain ⟨child, hchild, hlong⟩ := hfits
  refine Files.run_ask_ok hchild ?_
  rw [h.find_child hproper hn hchild hlong hnode hlink]
  rfl

/-- **Whether a node in the directory is one itself** is told by the node, if it is no link. -/
theorem LeadsTo.outcome_isDirectory (h : w.LeadsTo directory l) (hproper : directory.IsProper)
    (hn : FileTree.IsEntryName n) (hnode : w.files.node? (l ++ [n]) = some node)
    (hlink : ∀ target, node ≠ .link target) :
    w.outcome (Files.isDirectory (directory.child n)) = match Files.fileName (directory.child n).text with
      | .error _ => .ok false
      | .ok child =>
        if FileTree.pathLimit ≤ child.utf8ByteSize then
          .error (.system .nameTooLong [(directory.child n).text])
        else .ok node.isDirectory := by
  unfold Files.isDirectory Files.ask
  cases hchild : Files.fileName (directory.child n).text with
  | error f => rfl
  | ok child =>
    simp only
    rw [outcome_bind_ok (EStateM.run_get w)]
    by_cases hlong : FileTree.pathLimit ≤ child.utf8ByteSize
    · have hne : child ≠ "" := by
        rintro rfl
        exact absurd hlong (by decide)
      rw [if_pos hlong, FileTree.find, FileTree.resolve, if_neg hne, if_pos hlong]
      rfl
    · rw [if_neg hlong, h.find_child hproper hn hchild hlong hnode hlink]
      cases node with
      | directory => rfl
      | file content => rfl
      | link target => rfl

/-- **Whether a link to something that is there leads anywhere** is told. -/
theorem LeadsTo.isThere_of_link (h : w.LeadsTo directory l) (hproper : directory.IsProper)
    (hn : FileTree.IsEntryName n) (hfits : (directory.child n).Fits) {target : String}
    (hnode : w.files.node? (l ++ [n]) = some (.link target)) (htarget : Path.rootOf target ≠ "")
    {found : Node} (hfind : w.files.find w.cwd target = .ok found) :
    ∃ there, (Files.isThere (directory.child n)).run w = .ok there w := by
  obtain ⟨name, hname, hl⟩ := h
  obtain ⟨child, hchild, hlong⟩ := hfits
  obtain ⟨left, hleft, hwalk⟩ := FileTree.resolve_child hproper hn hname hchild hlong hl
  obtain ⟨d, hd⟩ := FileTree.exists_resolve_of_find hfind
  obtain ⟨hleads, -⟩ := FileTree.leads_of_resolve htarget hd
  have hslash : ¬(LastName.followed = .written ∧ FileTree.isSlashed [] = true) := fun h => nomatch h.2
  -- Behind the link the way goes on as it does to the target itself, with fewer links left.
  have hresolve : w.files.resolve w.cwd .followed child = .ok d ∨
      w.files.resolve w.cwd .followed child = .error .linkLoop := by
    rw [hwalk .followed (by decide), FileTree.walk_name hn.1 hslash, hnode]
    simp only [List.append_nil, if_neg htarget]
    cases left with
    | zero => exact .inr rfl
    | succ left => exact hleads.walk_of_fewer (Nat.le_of_succ_le hleft)
  obtain hresolve | hresolve := hresolve
  · refine ⟨true, Files.run_ask_ok hchild ?_⟩
    rw [FileTree.find, hd] at hfind
    rw [FileTree.find, hresolve]
    exact congrArg (Except.map fun _ => true) hfind
  · have hlost : w.files.find w.cwd child = .error .linkLoop := by
      rw [FileTree.find, hresolve]
    exact ⟨false, Files.run_ask_absent hchild (congrArg (Except.map fun _ => true) hlost) rfl⟩

/-! ## Making links -/

/-- One world became another one by a link that was made at a location, where nothing stood or what stood was
removed. -/
structure Linked (place : Location) (target : String) (w w' : World) : Prop where
  /-- The link is there. -/
  link : w'.files.node? place = some (.link target)
  /-- All other nodes are the same. -/
  node : ∀ l, ¬place <+: l → w'.files.node? l = w.files.node? l
  /-- The rest is the same. -/
  rest : ∃ files cwd, w' = { w with files, cwd }

/-- What was cut away in front of the link does not count afterwards. -/
theorem Linked.of_cut {place : Location} {target : String} (h : u.Linked place target w')
    (hcut : w.Cut place u) : w.Linked place target w' where
  link := h.link
  node l hl := (h.node l hl).trans (hcut.node l hl)
  rest := by
    obtain ⟨_, _, rfl⟩ := hcut.rest
    obtain ⟨files, cwd, rfl⟩ := h.rest
    exact ⟨files, cwd, rfl⟩

/-- Putting a link at a place links the world there. -/
theorem linked_put (w : World) {place : Location} (hplace : place ≠ []) (target : String) :
    w.Linked place target { w with files := w.files.put place (.link target) } where
  link := by rw [FileTree.node?_put _ hplace, if_pos rfl]
  node l hl := by
    rw [FileTree.node?_put _ hplace, if_neg]
    rintro rfl
    exact hl List.prefix_rfl
  rest := ⟨_, w.cwd, rfl⟩

/-- A link is made in the directory that the path without its name leads to. -/
theorem exists_linked_of_makeLink {name : String} {target : RawText} (hproper : directory.IsProper)
    (hn : FileTree.IsEntryName n) (hname : Files.fileName directory.text = .ok name) (hempty : name ≠ "")
    (h : (Files.makeLink (directory.child n) target).run w = .ok () w') :
    ∃ l targetName child, Files.fileName target = .ok targetName ∧
      Files.fileName (directory.child n).text = .ok child ∧
      w.files.resolve w.cwd .kept child = .ok (.free l n) ∧ w.files.node? (l ++ [n]) = none ∧
      w.Linked (l ++ [n]) targetName w' ∧ w.LeadsTo directory l ∧ w'.LeadsTo directory l := by
  obtain ⟨child, targetName, files, hchild, htarget, hmake, rfl⟩ := Files.makeLink_eq_ok h
  have hbelow := FileTree.below_of_makeNode hmake
  obtain ⟨l₁, c, hresolve, hfree, rfl⟩ := FileTree.exists_put_of_makeNode hmake
  obtain ⟨l, hl, ⟨hd, -⟩ | ⟨node, hd, -⟩⟩ := FileTree.resolve_of_child hproper hn hname hempty hchild hresolve
  · cases hd
    have hleads : w.LeadsTo directory l₁ := ⟨name, hname, hl⟩
    exact ⟨l₁, targetName, child, htarget, hchild, hresolve, hfree, linked_put w (by simp) targetName, hleads,
      hleads.of_below hbelow rfl⟩
  · cases hd

/-- **A link that is made in the directory** stands where nothing stood, and the path leads to the directory
still. -/
theorem LeadsTo.linked_of_makeLink {target : RawText} (h : w.LeadsTo directory l)
    (hproper : directory.IsProper) (hn : FileTree.IsEntryName n)
    (hmake : (Files.makeLink (directory.child n) target).run w = .ok () w') :
    ∃ targetName, Files.fileName target = .ok targetName ∧ w.files.node? (l ++ [n]) = none ∧
      w.Linked (l ++ [n]) targetName w' ∧ w'.LeadsTo directory l := by
  obtain ⟨name, hname, hl⟩ := id h
  obtain ⟨l', targetName, -, htarget, -, -, hfree, hlinked, hleads, hleads'⟩ :=
    exists_linked_of_makeLink hproper hn hname (FileTree.bounds_of_resolve hl).1 hmake
  cases h.unique hleads
  exact ⟨targetName, htarget, hfree, hlinked, hleads'⟩

/-- **A link that is made in the place of an entry** stands where the entry stood, and the path leads to the
directory still: it does not lead through the entry. -/
theorem LeadsTo.linked_of_replace {target : RawText} (h : w.LeadsTo directory l)
    (hproper : directory.IsProper) (hn : FileTree.IsEntryName n)
    (hremove : (Files.remove (directory.child n)).run w = .ok () u)
    (hmake : (Files.makeLink (directory.child n) target).run u = .ok () w') :
    ∃ targetName, Files.fileName target = .ok targetName ∧ w.Linked (l ++ [n]) targetName w' ∧
      w'.LeadsTo directory l := by
  obtain ⟨name, hname, hl⟩ := h
  have hempty := (FileTree.bounds_of_resolve hl).1
  obtain ⟨child, place, node, hchild, hresolve, hcut⟩ := Files.remove_eq_ok hremove
  obtain ⟨l', hl', ⟨hd, -⟩ | ⟨node', hd, -⟩⟩ :=
    FileTree.resolve_of_child hproper hn hname hempty hchild hresolve
  · cases hd
  cases hd
  cases hl.symm.trans hl'
  have hcut := hcut (by simp)
  obtain ⟨l₁, targetName, child', htarget, hchild', hfree, -, hlinked, -, hleads⟩ :=
    exists_linked_of_makeLink hproper hn hname hempty hmake
  cases hchild.symm.trans hchild'
  -- The name that is free now is that of the entry.
  obtain ⟨d, hd, hsame⟩ :=
    FileTree.resolve_of_above (hcut.paths hfree fun _ => Destination.noConfusion) hcut.below
  have hplace : l₁ = l := by
    obtain rfl | ⟨node, rfl⟩ := hsame
    · cases hresolve.symm.trans hd
    · have hsame := Destination.found.inj (Except.ok.inj (hresolve.symm.trans hd))
      exact (List.append_inj' hsame.1 rfl).1.symm
  subst hplace
  exact ⟨targetName, htarget, hlinked.of_cut hcut, hleads⟩

end World

end CommandShell
