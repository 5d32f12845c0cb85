import CommandShell.Proofs.Files.Walk

/-! # Reading and writing files

A file that was written reads back (`read_of_write`), and a file that reads can be written
(`write_of_read`). Where a file reads, its directory is there (`directory_of_read`). All of it follows
from what the components of a path lead to: how a path is cut into components, and from where they are
followed, depends neither on the tree nor on what is asked about the path. -/

namespace CommandShell

/-! ## Components of a path -/

/-- A list is split at a separator in the middle into the parts of both sides. -/
theorem Text.splitWhere_append {α : Type} (p : α → Bool) {c : α} (hc : p c = true)
    (cs ds : List α) :
    splitWhere p (cs ++ c :: ds) = splitWhere p cs ++ splitWhere p ds := by
  induction cs with
  | nil => rw [splitWhere_nil, List.nil_append, splitWhere, if_pos hc, List.singleton_append]
  | cons b cs ih =>
    rw [List.cons_append, splitWhere, splitWhere, ih]
    by_cases hb : p b = true
    · rw [if_pos hb, if_pos hb, List.cons_append]
    · rw [if_neg hb, if_neg hb]
      cases hsplit : splitWhere p cs with
      | nil => exact absurd hsplit (splitWhere_ne_nil p cs)
      | cons w ws => rfl

/-- A list without separators is one part. -/
theorem Text.splitWhere_of_forall {α : Type} {p : α → Bool} {cs : List α}
    (h : ∀ c ∈ cs, p c = false) : splitWhere p cs = [cs] := by
  induction cs with
  | nil => rfl
  | cons c cs ih =>
    have hc : ¬p c = true := by
      rw [h c List.mem_cons_self]
      exact Bool.false_ne_true
    rw [splitWhere, if_neg hc, ih fun b hb => h b (List.mem_cons_of_mem _ hb)]

namespace Path

/-- A path with one more name has one more component. -/
theorem components_append {name : String} (hname : '/' ∉ name.toList) (path : String) :
    components (path ++ "/" ++ name) = components path ++ [name] := by
  have hplain : ∀ c ∈ name.toList, (c == '/') = false := by
    intro c hc
    refine beq_false_of_ne ?_
    rintro rfl
    exact hname hc
  have htext : (path ++ "/" ++ name).toList = path.toList ++ '/' :: name.toList := by
    rw [String.toList_append, String.toList_append, List.append_assoc]
    rfl
  rw [components, htext, Text.splitWhere_append _ rfl, Text.splitWhere_of_forall hplain,
    List.map_append, List.map_singleton, String.ofList_toList, components]

/-- A name at the end does not make a path absolute. -/
theorem rootOf_append {path : String} (h : path ≠ "") (rest : String) :
    rootOf (path ++ rest) = "" ↔ rootOf path = "" := by
  have hstart (s : String) : rootOf s = "" ↔ s.toList.head? ≠ some '/' := by
    unfold rootOf
    split
    · rename_i hs
      simp [hs]
    · rename_i hs
      simp [hs]
    · rename_i hs
      simp [hs]
    · rename_i hs
      refine iff_of_true rfl ?_
      intro hhead
      obtain ⟨rest, hrest⟩ := List.head?_eq_some_iff.mp hhead
      exact hs rest hrest
  rw [hstart, hstart, String.toList_append]
  cases hp : path.toList with
  | nil => exact absurd (String.toList_eq_nil_iff.mp hp) h
  | cons c cs => rfl

/-- One more text is put behind the others with a separator before it. -/
theorem intercalate_concat {α : Type} (separator : List α) {xs : List (List α)} (h : xs ≠ [])
    (y : List α) :
    separator.intercalate (xs ++ [y]) = separator.intercalate xs ++ separator ++ y := by
  induction xs with
  | nil => exact absurd rfl h
  | cons x xs ih =>
    cases xs with
    | nil =>
      rw [List.singleton_append, List.intercalate_cons_cons, List.intercalate_singleton,
        List.intercalate_singleton]
    | cons x' xs =>
      have hrest := ih (List.cons_ne_nil _ _)
      rw [List.cons_append] at hrest ⊢
      rw [List.cons_append, List.intercalate_cons_cons, hrest, List.intercalate_cons_cons]
      simp only [List.append_assoc]

/-- The text of a path with one more component. -/
theorem text_concat {p : Path} (h : p.parts ≠ []) (c : RawText) :
    (Path.mk p.root (p.parts ++ [c])).text = p.text ++ "/" ++ c := by
  have hlong : ¬(p.root = "" ∧ p.parts ++ [c] = []) := by simp
  have hshort : ¬(p.root = "" ∧ p.parts = []) := fun hp => h hp.2
  have hmap : p.parts.map RawText.points ≠ [] := by simpa using h
  have happend (s t : RawText) : s ++ t = ⟨s.points ++ t.points⟩ := rfl
  rw [text, text, if_neg hlong, if_neg hshort]
  simp only [RawText.intercalate, List.map_append, List.map_singleton,
    intercalate_concat _ hmap, happend, List.append_assoc]

/-- The text of a path ends with its last component. -/
theorem exists_text_concat (root : String) (parts : List RawText) (c : RawText) :
    ∃ start, (Path.mk root (parts ++ [c])).text = start ++ c := by
  cases parts with
  | nil =>
    refine ⟨RawText.ofString root, ?_⟩
    rw [text, if_neg (by simp)]
    simp only [RawText.intercalate, List.nil_append, List.map_singleton,
      List.intercalate_singleton]
  | cons p ps => exact ⟨_, text_concat (p := ⟨root, p :: ps⟩) (List.cons_ne_nil p ps) c⟩

end Path

namespace FileTree

variable {t : FileTree} {last : LastName} {cwd : WorkingDirectory} {path : String}
  {d : Destination}

/-! ## Where a path starts -/

/-- A lost directory lets a path out or stops it, whatever stands in the tree: what follows a path
from a working directory follows some of its components from a location. -/
theorem walkOut_start {cs more : List String} (hmore : ∀ c ∈ more.head?, IsName c)
    (h : t.walkOut last cwd (cs ++ more) = .ok d) :
    (more = [] ∧ ∃ e, d = .lost e) ∨ ∃ place rest, Leads t last maxLinks place (rest ++ more) d ∧
      ∀ {t' : FileTree} {last' : LastName} {more' : List String} {d' : Destination},
        Leads t' last' maxLinks place (rest ++ more') d' →
          t'.walkOut last' cwd (cs ++ more') = .ok d' := by
  -- From a directory that is not lost the tree is walked at once.
  have hwalk {t : FileTree} {last : LastName} {cwd : WorkingDirectory} (hlost : cwd.lost = 0)
      (cs : List String) (d : Destination) :
      t.walkOut last cwd cs = .ok d ↔ Leads t last maxLinks cwd.place cs d := by
    rw [← walk_eq_ok_iff]
    cases cs with
    | nil => rw [walkOut, if_pos hlost, walk]
    | cons c cs => rw [walkOut, if_pos hlost]
  by_cases hlost : cwd.lost = 0
  · exact .inr ⟨cwd.place, cs, (hwalk hlost _ _).mp h, (hwalk hlost _ _).mpr⟩
  -- Outside the tree only blank components and steps up are allowed, until the tree is reached.
  induction cs generalizing cwd with
  | nil =>
    cases more with
    | nil =>
      rw [List.nil_append, walkOut, if_neg hlost] at h
      cases h
      exact .inl ⟨rfl, _, rfl⟩
    | cons c more =>
      obtain ⟨hblank, hup, _⟩ := hmore c rfl
      rw [List.nil_append, walkOut, if_neg hlost, if_neg hblank, if_neg hup] at h
      cases h
  | cons c cs ih =>
    rw [List.cons_append, walkOut, if_neg hlost] at h
    by_cases hblank : c = "" ∨ c = "."
    · rw [if_pos hblank] at h
      refine (ih h hlost).imp_right ?_
      rintro ⟨place, rest, hleads, hback⟩
      refine ⟨place, rest, hleads, ?_⟩
      intro t' last' more' d' hl
      rw [List.cons_append, walkOut, if_neg hlost, if_pos hblank]
      exact hback hl
    rw [if_neg hblank] at h
    by_cases hup : c = ".."
    · rw [if_pos hup] at h
      -- One step up may lead back into the tree.
      by_cases hlost' : cwd.lost - 1 = 0
      · refine .inr ⟨cwd.place.dropLast, cs, (hwalk hlost' _ _).mp h, ?_⟩
        intro t' last' more' d' hl
        rw [List.cons_append, walkOut, if_neg hlost, if_neg hblank, if_pos hup]
        exact (hwalk hlost' _ _).mpr hl
      refine (ih h hlost').imp_right ?_
      rintro ⟨place, rest, hleads, hback⟩
      refine ⟨place, rest, hleads, ?_⟩
      intro t' last' more' d' hl
      rw [List.cons_append, walkOut, if_neg hlost, if_neg hblank, if_pos hup]
      exact hback hl
    · rw [if_neg hup] at h
      cases h

/-- Where a path starts does not depend on what is asked about it. -/
theorem resolve_start (h : t.resolve cwd last path = .ok d) :
    (∃ e, d = .lost e) ∨ ∃ place cs, Leads t last maxLinks place cs d ∧
      ∀ {t' : FileTree} {last' : LastName} {d' : Destination},
        Leads t' last' maxLinks place cs d' → t'.resolve cwd last' path = .ok d' := by
  unfold resolve at h ⊢
  split at h
  · cases h
  rename_i hempty
  split at h
  · cases h
  rename_i hlong
  simp only [if_neg hempty, if_neg hlong]
  -- A relative path starts at the working directory, an absolute one at the root.
  by_cases hroot : Path.rootOf path = ""
  · rw [if_pos hroot] at h
    simp only [if_pos hroot]
    rw [← List.append_nil (Path.components path)] at h
    refine (walkOut_start (by simp) h).imp (fun h => h.2) ?_
    rintro ⟨place, rest, hleads, hback⟩
    rw [List.append_nil] at hleads
    refine ⟨place, rest, hleads, fun {t' last' d'} hl => ?_⟩
    have hl' : t'.walkOut last' cwd (Path.components path ++ []) = .ok d' :=
      hback (by rwa [List.append_nil])
    rwa [List.append_nil] at hl'
  · rw [if_neg hroot] at h
    simp only [if_neg hroot]
    exact .inr ⟨[], _, leads_of_walk h, walk_of_leads⟩

/-- What leads to a lost directory does so in any tree. -/
theorem resolve_lost {e : WorkingDirectory} (h : t.resolve cwd last path = .ok (.lost e))
    (t' : FileTree) (last' : LastName) : t'.resolve cwd last' path = .ok (.lost e) := by
  have hout (cs : List String) (cwd : WorkingDirectory)
      (h : t.walkOut last cwd cs = .ok (.lost e)) : t'.walkOut last' cwd cs = .ok (.lost e) := by
    induction cs generalizing cwd with
    | nil => exact h
    | cons c cs ih =>
      rw [walkOut] at h ⊢
      split at h
      · exact absurd rfl ((leads_of_walk h).ne_lost e)
      · rename_i hlost
        rw [if_neg hlost]
        split at h
        · rename_i hblank
          rw [if_pos hblank]
          exact ih _ h
        · rename_i hblank
          rw [if_neg hblank]
          split at h
          · rename_i hup
            rw [if_pos hup]
            exact ih _ h
          · cases h
  -- An absolute path starts at the root, which is never lost.
  unfold resolve at h ⊢
  split at h
  · cases h
  rename_i hempty
  rw [if_neg hempty]
  split at h
  · cases h
  rename_i hlong
  rw [if_neg hlong]
  split at h
  · rename_i hroot
    rw [if_pos hroot]
    exact hout _ _ h
  · exact absurd rfl ((leads_of_walk h).ne_lost e)

/-- A path with one more name starts where the path itself does. -/
theorem resolve_child_start {name : String} (hname : IsName name) (hslash : '/' ∉ name.toList)
    (hempty : path ≠ "") (h : t.resolve cwd last (path ++ "/" ++ name) = .ok d) :
    ∃ place cs, Leads t last maxLinks place (cs ++ [name]) d ∧
      ∀ {t' : FileTree} {last' : LastName} {d' : Destination},
        Leads t' last' maxLinks place cs d' → t'.resolve cwd last' path = .ok d' := by
  have hroot := Path.rootOf_append hempty ("/" ++ name)
  have hlength : path.utf8ByteSize ≤ (path ++ "/" ++ name).utf8ByteSize := by
    rw [String.utf8ByteSize_append, String.utf8ByteSize_append]
    omega
  rw [← String.append_assoc] at hroot
  unfold resolve at h ⊢
  split at h
  · cases h
  split at h
  · cases h
  rename_i hlong
  have hlong' : ¬pathLimit ≤ path.utf8ByteSize := by omega
  rw [Path.components_append hslash] at h
  simp only [if_neg hempty, if_neg hlong']
  -- A relative path may climb out of a lost directory before it comes to the tree.
  by_cases habsolute : Path.rootOf path = ""
  · rw [if_pos (hroot.mpr habsolute)] at h
    simp only [if_pos habsolute]
    have hmore : ∀ c ∈ [name].head?, IsName c := by
      intro c hc
      obtain rfl := Option.some.inj hc
      exact hname
    obtain ⟨hnil, _⟩ | ⟨place, rest, hleads, hback⟩ := walkOut_start hmore h
    · cases hnil
    refine ⟨place, rest, hleads, fun {t' last' d'} hl => ?_⟩
    have hl' : t'.walkOut last' cwd (Path.components path ++ []) = .ok d' :=
      hback (by rwa [List.append_nil])
    rwa [List.append_nil] at hl'
  · rw [if_neg fun hrel => habsolute (hroot.mp hrel)] at h
    simp only [if_neg habsolute]
    exact ⟨[], _, leads_of_walk h, walk_of_leads⟩

/-! ## Reading and writing -/

/-- A file is read exactly if the path, links followed, leads to it. -/
theorem read_eq_ok_iff {place : Location} {content : Content} :
    t.read cwd path = .ok (place, content) ↔
      t.resolve cwd .followed path = .ok (.found place (.file content)) := by
  unfold read
  constructor
  · intro h
    split at h
    · cases h
    · rename_i hresolve
      cases h
      exact hresolve
    · cases h
    · cases h
  · intro h
    rw [h]

/-- What a path leads to for writing is found when its last name is followed. -/
theorem resolve_followed (h : t.resolve cwd .written path = .ok d) (hd : ∀ e, d ≠ .lost e) :
    t.resolve cwd .followed path = .ok d := by
  obtain ⟨e, he⟩ | ⟨_, _, hleads, hback⟩ := resolve_start h
  · exact absurd he (hd e)
  · exact hback hleads.followed

/-- **A file that reads can be written**, in its place. -/
theorem write_of_read {place : Location} {content : Content}
    (h : t.read cwd path = .ok (place, content)) (update : Option Content → Content) :
    t.write cwd path update = .ok (t.put place (.file (update (some content)))) := by
  rw [read_eq_ok_iff] at h
  -- What the path leads to when its last name is followed it leads to for writing.
  obtain ⟨e, he⟩ | ⟨place', cs, hleads, hback⟩ := resolve_start h
  · cases he
  have hwritten : t.resolve cwd .written path = .ok (.found place (.file content)) :=
    hback (hleads.written rfl)
  rw [write, hwritten]

/-- **A file that was written reads back.** What is updated is what stood there, or nothing. -/
theorem read_of_write {update : Option Content → Content} {t' : FileTree}
    (h : t.write cwd path update = .ok t') :
    ∃ place old, t' = t.put place (.file (update old)) ∧
      t'.read cwd path = .ok (place, update old) ∧
      t.read cwd path = match old with
        | some content => .ok (place, content)
        | none => .error .noEntry := by
  unfold write at h
  split at h
  · cases h
  · rename_i place content hresolve
    cases h
    obtain ⟨e, he⟩ | ⟨start, cs, hleads, hback⟩ := resolve_start hresolve
    · cases he
    have hput := hleads.followed.put hleads.takesFile_file (update (some content))
    rw [Destination.withFile_file_self] at hput
    exact ⟨place, some content, rfl, read_eq_ok_iff.mpr (hback hput),
      read_eq_ok_iff.mpr (hback hleads.followed)⟩
  · rename_i place name hresolve
    cases h
    obtain ⟨e, he⟩ | ⟨start, cs, hleads, hback⟩ := resolve_start hresolve
    · cases he
    have hput := hleads.followed.put hleads.takesFile_free (update none)
    rw [Destination.withFile_free_self] at hput
    refine ⟨place ++ [name], none, rfl, read_eq_ok_iff.mpr (hback hput), ?_⟩
    have hfree : t.resolve cwd .followed path = .ok (.free place name) := hback hleads.followed
    rw [read, hfree]
  · cases h

/-- Whether a file can be written does not depend on what is written. -/
theorem write_of_write {update : Option Content → Content} {t' : FileTree}
    (h : t.write cwd path update = .ok t') (update' : Option Content → Content) :
    ∃ t'', t.write cwd path update' = .ok t'' := by
  unfold write at h ⊢
  split at h
  · cases h
  · exact ⟨_, rfl⟩
  · exact ⟨_, rfl⟩
  · cases h

/-- What reads after a file was written, other than that file, read the same before. -/
theorem read_of_read_written {update : Option Content → Content} {t' : FileTree} {path' : String}
    {place : Location} {content : Content} (h : t.write cwd path update = .ok t')
    (hread : t'.read cwd path' = .ok (place, content)) (hne : ∀ old, content ≠ update old) :
    t.read cwd path' = .ok (place, content) := by
  obtain ⟨l, old, rfl, hwritten, _⟩ := read_of_write h
  obtain ⟨e, he⟩ | ⟨_, _, hleads, _⟩ := resolve_start (read_eq_ok_iff.mp hwritten)
  · cases he
  obtain ⟨hl, _⟩ := hleads.node?_file rfl
  obtain ⟨e, he⟩ | ⟨start, cs, hother, hback⟩ := resolve_start (read_eq_ok_iff.mp hread)
  · cases he
  exact read_eq_ok_iff.mpr (hback (hother.of_put hl rfl (hne old)))

/-- **Where a file reads, its directory is there**: the path to it is taken, and leads to a
directory. -/
theorem directory_of_read {name : String} (hname : IsName name) (hslash : '/' ∉ name.toList)
    (hempty : path ≠ "") {r : Location × Content}
    (h : t.read cwd (path ++ "/" ++ name) = .ok r) (node : Node) :
    t.makeNode cwd path node = .error .occupied ∧ t.find cwd path = .ok .directory := by
  obtain ⟨place, content⟩ := r
  rw [read_eq_ok_iff] at h
  -- The path to the directory is the path to the file without its last step.
  obtain ⟨start, cs, hleads, hback⟩ := resolve_child_start hname hslash hempty h
  obtain ⟨l, n, hkept, _⟩ := hleads.parent rfl (by decide : LastName.kept ≠ .written)
  obtain ⟨l', n', hfollowed, hn⟩ := hleads.parent rfl (by decide : LastName.followed ≠ .written)
  obtain rfl := hn rfl
  have hmake : t.resolve cwd .kept path = .ok (.found l n) := hback hkept
  have hfind : t.resolve cwd .followed path = .ok (.found l' .directory) := hback hfollowed
  exact ⟨by rw [makeNode, hmake], by rw [find, hfind]⟩

end FileTree

end CommandShell
