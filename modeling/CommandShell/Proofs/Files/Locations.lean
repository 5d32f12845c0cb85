import CommandShell.Proofs.Files.Inside

/-! # Directories and their texts

The text of a location (`Files.locationText`) is read as the path from the root along its names
(`Path.ofString_locationText`). In a tree that is **connected**, where everything stands in a directory
(`FileTree.IsConnected`), the text of a directory leads to this directory from everywhere, unless it is too long
(`FileTree.directory_locationText`): there is no link on the way. A directory to which a path leads from a
directory of the tree is one of the tree again (`FileTree.Leads.node?_directory`). -/

namespace CommandShell

/-! ## Reading the text of a location -/

/-- A list that was mapped is split at the same places. -/
theorem Text.splitWhere_map {α β : Type} (f : α → β) (p : β → Bool) (cs : List α) :
    splitWhere p (cs.map f) = (splitWhere (p ∘ f) cs).map (List.map f) := by
  induction cs with
  | nil => rfl
  | cons c cs ih =>
    rw [List.map_cons, splitWhere, splitWhere, ih, Function.comp_apply]
    by_cases hc : p (f c) = true
    · rw [if_pos hc, if_pos hc]
      rfl
    · rw [if_neg hc, if_neg hc]
      cases hsplit : splitWhere (p ∘ f) cs with
      | nil => exact absurd hsplit (splitWhere_ne_nil _ cs)
      | cons w ws => rfl

namespace Path

/-- A string has the same components as a text. -/
theorem pieces_ofString (s : String) :
    pieces (RawText.ofString s) = (components s).map RawText.ofString := by
  have hslash : (fun c => c == CodePoint.char '/') ∘ CodePoint.char = fun c => c == '/' := by
    funext c
    by_cases hc : c = '/'
    · subst hc
      rfl
    · rw [Function.comp_apply, beq_false_of_ne hc, beq_false_of_ne fun h => hc (CodePoint.char.inj h)]
  have hsplit := Text.splitWhere_map CodePoint.char (fun c => c == CodePoint.char '/') s.toList
  rw [hslash] at hsplit
  rw [pieces, RawText.ofString, hsplit, components, List.map_map, List.map_map]
  refine List.map_congr_left fun cs _ => ?_
  simp only [Function.comp_apply, RawText.ofString, String.toList_ofList]

end Path

namespace Files

variable {l : Location} {n : String}

/-- One more name comes behind a slash. -/
theorem locationText_concat (hl : l ≠ []) (n : String) :
    locationText (l ++ [n]) = locationText l ++ "/" ++ n := by
  rw [locationText, locationText, String.intercalate_append_of_ne_nil hl (List.cons_ne_nil n []),
    String.intercalate_singleton]
  simp only [String.append_assoc]

/-- An entry of the root is named by a slash and its name. -/
theorem locationText_singleton (n : String) : locationText [n] = "/" ++ n := by
  rw [locationText, String.intercalate_singleton]

/-- Only slashes and the names are in the text. -/
theorem mem_locationText {c : Char} (hc : c ∈ (locationText l).toList) :
    c = '/' ∨ ∃ n ∈ l, c ∈ n.toList := by
  have hslash (hc : c ∈ ("/" : String).toList) : c = '/' := List.mem_singleton.mp hc
  induction l using List.reverseRecOn with
  | nil => exact .inl (hslash hc)
  | append_singleton l n ih =>
    have hlast : n ∈ l ++ [n] := List.mem_append_right l List.mem_cons_self
    by_cases hl : l = []
    · subst hl
      rw [List.nil_append, locationText_singleton, String.toList_append, List.mem_append] at hc
      exact hc.imp hslash fun hc => ⟨n, hlast, hc⟩
    · rw [locationText_concat hl, String.toList_append, String.toList_append, List.mem_append,
        List.mem_append] at hc
      obtain (hc | hc) | hc := hc
      · exact (ih hc).imp_right fun ⟨m, hm, hc⟩ => ⟨m, List.mem_append_left _ hm, hc⟩
      · exact .inl (hslash hc)
      · exact .inr ⟨n, hlast, hc⟩

/-- The components of the text are the names, behind the empty one before the first slash. -/
theorem components_locationText (hl : l ≠ []) (hnames : ∀ n ∈ l, '/' ∉ n.toList) :
    Path.components (locationText l) = "" :: l := by
  induction l using List.reverseRecOn with
  | nil => exact absurd rfl hl
  | append_singleton l n ih =>
    have hn := hnames n (List.mem_append_right l List.mem_cons_self)
    by_cases hempty : l = []
    · subst hempty
      have htext : locationText ([] ++ [n]) = "" ++ "/" ++ n := by
        rw [List.nil_append, locationText_singleton, String.empty_append]
      rw [htext, Path.components_append hn]
      rfl
    · rw [locationText_concat hempty, Path.components_append hn,
        ih hempty fun m hm => hnames m (List.mem_append_left _ hm)]
      rfl

/-- The text starts with a single slash. -/
theorem rootOf_locationText (hnames : ∀ n ∈ l, FileTree.IsEntryName n) :
    Path.rootOf (locationText l) = "/" := by
  cases l with
  | nil => rfl
  | cons n l =>
    obtain ⟨⟨hblank, -, -⟩, hslash⟩ := hnames n List.mem_cons_self
    obtain ⟨rest, hrest⟩ : ∃ rest, "/".intercalate (n :: l) = n ++ rest := by
      cases l with
      | nil => exact ⟨"", by rw [String.intercalate_singleton, String.append_empty]⟩
      | cons m l => exact ⟨_, by rw [String.intercalate_cons_cons, String.append_assoc]⟩
    cases hn : n.toList with
    | nil => exact absurd (.inl (String.toList_eq_nil_iff.mp hn)) hblank
    | cons c cs =>
      have hc : c ≠ '/' := by
        rintro rfl
        rw [hn] at hslash
        exact hslash List.mem_cons_self
      -- Behind the first slash stands a character of a name, so the slash is not doubled.
      have htext : (locationText (n :: l)).toList = '/' :: c :: (cs ++ rest.toList) := by
        rw [locationText, hrest, String.toList_append, String.toList_append, hn]
        rfl
      unfold Path.rootOf
      rw [htext]
      split
      · rename_i h
        exact absurd (List.cons.inj (List.cons.inj h).2).1 hc
      · rename_i h
        exact absurd (List.cons.inj (List.cons.inj h).2).1 hc
      · rfl
      · rename_i _ _ h
        exact absurd rfl (h _)

end Files

namespace Path

variable {l : Location}

/-- **The text of a location** is read as the path along its names. -/
theorem ofString_locationText (hnames : ∀ n ∈ l, FileTree.IsEntryName n) :
    ofString (Files.locationText l) = ofNames l := by
  rw [ofString, ofText, RawText.toString_ofString, Files.rootOf_locationText hnames, pieces_ofString,
    ofNames]
  congr 1
  by_cases hl : l = []
  · subst hl
    rfl
  · rw [Files.components_locationText hl fun n hn => (hnames n hn).2, List.map_cons,
      List.filter_cons_of_neg (by decide), List.filter_eq_self]
    intro c hc
    obtain ⟨n, hn, rfl⟩ := List.mem_map.mp hc
    obtain ⟨⟨hblank, -, -⟩, -⟩ := hnames n hn
    rw [Bool.and_eq_true, bne_iff_ne, bne_iff_ne]
    exact ⟨fun h => hblank (.inl (RawText.ofString_inj.mp h)),
      fun h => hblank (.inr (RawText.ofString_inj.mp h))⟩

/-- The path along some names has the text of their location. -/
theorem text_ofNames (l : Location) : (ofNames l).text = RawText.ofString (Files.locationText l) := by
  have happend (s t : String) : RawText.ofString s ++ RawText.ofString t = RawText.ofString (s ++ t) := by
    rw [RawText.ofString, RawText.ofString, RawText.ofString, String.toList_append, List.map_append]
    rfl
  induction l using List.reverseRecOn with
  | nil => rfl
  | append_singleton l n ih =>
    by_cases hl : l = []
    · subst hl
      rw [List.nil_append, Files.locationText_singleton, ← happend]
      rw [text, if_neg (by simp [ofNames])]
      simp only [ofNames, RawText.intercalate, List.map_singleton, List.intercalate_singleton]
    · have hparts : (ofNames l).parts ≠ [] := by simpa [ofNames] using hl
      have hconcat := text_concat hparts (RawText.ofString n)
      rw [ih, happend, happend] at hconcat
      rw [Files.locationText_concat hl, ← hconcat, ofNames, List.map_append, List.map_singleton]
      rfl

end Path

/-! ## Connected trees -/

/-- A tree is **connected** if everything stands in a directory, under a name that a path can write. -/
structure FileTree.IsConnected (t : FileTree) : Prop where
  /-- Names are those of entries. -/
  entryName : ∀ l n node, t.node? (l ++ [n]) = some node → IsEntryName n
  /-- No name has the null character in it. -/
  noNul : ∀ l n node, t.node? (l ++ [n]) = some node → Char.ofNat 0 ∉ n.toList
  /-- Everything stands in a directory. -/
  parent : ∀ l n node, t.node? (l ++ [n]) = some node → t.node? l = some .directory

namespace FileTree

variable {t : FileTree} {last : LastName} {links : Nat} {place l : Location} {cs : List String}
  {d : Destination} {cwd : WorkingDirectory} {path : String} {node : Node}

/-- A tree is connected if each of its nodes is under a name in a directory. -/
theorem isConnected_of_nodes (h : ∀ p ∈ t.nodes.toList, ∃ l n, p.1 = l ++ [n] ∧ IsEntryName n ∧
    Char.ofNat 0 ∉ n.toList ∧ t.node? l = some .directory) : t.IsConnected := by
  have hentry (l : Location) (n : String) (node : Node) (hnode : t.node? (l ++ [n]) = some node) :
      IsEntryName n ∧ Char.ofNat 0 ∉ n.toList ∧ t.node? l = some .directory := by
    unfold node? at hnode
    rw [if_neg (List.append_ne_nil_of_right_ne_nil l (List.cons_ne_nil n []))] at hnode
    obtain ⟨l', n', heq, hn⟩ := h _ (Table.mem_of_get? hnode)
    obtain ⟨rfl, hlast⟩ := List.append_inj' heq rfl
    cases hlast
    exact hn
  exact ⟨fun l n node hnode => (hentry l n node hnode).1, fun l n node hnode => (hentry l n node hnode).2.1,
    fun l n node hnode => (hentry l n node hnode).2.2⟩

namespace IsConnected

/-- The names on the way to a node are those of entries, and have no null character in them. -/
theorem names (ht : t.IsConnected) (h : t.node? l = some node) :
    ∀ n ∈ l, IsEntryName n ∧ Char.ofNat 0 ∉ n.toList := by
  induction l using List.reverseRecOn generalizing node with
  | nil => exact fun _ hn => absurd hn List.not_mem_nil
  | append_singleton l n ih =>
    intro m hm
    obtain hm | hm := List.mem_append.mp hm
    · exact ih (ht.parent _ _ _ h) m hm
    · rw [List.mem_singleton.mp hm]
      exact ⟨ht.entryName _ _ _ h, ht.noNul _ _ _ h⟩

/-- Above a directory there are only directories. -/
theorem directory_above (ht : t.IsConnected) (h : t.node? (l ++ cs) = some .directory) :
    t.node? l = some .directory := by
  induction cs using List.reverseRecOn with
  | nil => rwa [List.append_nil] at h
  | append_singleton cs c ih =>
    rw [← List.append_assoc] at h
    exact ih (ht.parent _ _ _ h)

/-- One step up from a directory there is a directory. -/
theorem directory_dropLast (ht : t.IsConnected) (h : t.node? l = some .directory) :
    t.node? l.dropLast = some .directory := by
  obtain rfl | ⟨l, c, rfl⟩ := List.eq_nil_or_concat l
  · exact h
  · rw [List.concat_eq_append] at h ⊢
    rw [List.dropLast_concat]
    exact ht.parent _ _ _ h

/-- The names below a directory lead down to a directory. -/
theorem leads_down (ht : t.IsConnected) (h : t.node? (place ++ cs) = some .directory) :
    Leads t .followed links place cs (.found (place ++ cs) .directory) := by
  induction cs generalizing place with
  | nil =>
    rw [List.append_nil]
    exact .here
  | cons c cs ih =>
    rw [← List.singleton_append, ← List.append_assoc] at h ⊢
    have hc : t.node? (place ++ [c]) = some .directory := ht.directory_above h
    exact .enter (ht.entryName _ _ _ hc).1 hc (fun h => nomatch h.1) (ih h)

end IsConnected

/-- **A directory to which components lead** from a directory of the tree is one of the tree. -/
theorem Leads.node?_directory (h : Leads t last links place cs d) (ht : t.IsConnected)
    (hplace : t.node? place = some .directory) (hd : d = .found l .directory) :
    t.node? l = some .directory := by
  induction h with
  | here =>
    cases hd
    exact hplace
  | skip _ _ ih => exact ih hplace hd
  | up _ ih => exact ih (ht.directory_dropLast hplace) hd
  | free => cases hd
  | file => cases hd
  | enter _ hnode _ _ ih => exact ih hnode hd
  | link => cases hd
  | @follow _ _ _ target _ _ _ _ _ _ _ ih =>
    refine ih ?_ hd
    -- A link leads on from its own directory, or from the root.
    split
    · exact hplace
    · rfl

/-- From a directory of the tree paths lead to directories of the tree. -/
theorem node?_of_directory {e : WorkingDirectory} (ht : t.IsConnected) (hthere : cwd.lost = 0)
    (hcwd : t.node? cwd.place = some .directory) (h : t.directory cwd path = .ok e) :
    ∃ l, e = .ofLocation l ∧ t.node? l = some .directory ∧
      t.resolve cwd .followed path = .ok (.found l .directory) := by
  obtain ⟨d, hresolve, hd⟩ := directory_eq_ok h
  have hleads : ∃ place cs, t.node? place = some .directory ∧ Leads t .followed maxLinks place cs d := by
    have hwalk := hresolve
    unfold resolve at hwalk
    rw [walkOut_of_there hthere] at hwalk
    split at hwalk
    · cases hwalk
    split at hwalk
    · cases hwalk
    split at hwalk
    · exact ⟨_, _, hcwd, leads_of_walk hwalk⟩
    · exact ⟨_, _, rfl, leads_of_walk hwalk⟩
  obtain ⟨place, cs, hplace, hleads⟩ := hleads
  obtain ⟨l, rfl, rfl⟩ | rfl := hd
  · exact ⟨l, rfl, hleads.node?_directory ht hplace rfl, hresolve⟩
  · exact absurd rfl (hleads.ne_lost e)

/-- **The text of a directory** leads to it from everywhere, unless it is too long. -/
theorem directory_locationText (ht : t.IsConnected) (hl : t.node? l = some .directory)
    (cwd : WorkingDirectory) :
    t.directory cwd (Files.locationText l)
      = if pathLimit ≤ (Files.locationText l).utf8ByteSize then .error .nameTooLong
        else .ok (.ofLocation l) := by
  have hnames : ∀ n ∈ l, IsEntryName n := fun n hn => (ht.names hl n hn).1
  have hroot : Path.rootOf (Files.locationText l) ≠ "" := by
    rw [Files.rootOf_locationText hnames]
    decide
  have hempty : Files.locationText l ≠ "" := by
    intro h
    rw [h] at hroot
    exact hroot rfl
  have hleads : Leads t .followed maxLinks [] (Path.components (Files.locationText l))
      (.found l .directory) := by
    by_cases hnil : l = []
    · subst hnil
      exact (.skip (.inl rfl) (.skip (.inl rfl) .here) : Leads t _ _ _ ["", ""] _)
    · rw [Files.components_locationText hnil fun n hn => (hnames n hn).2]
      exact .skip (.inl rfl) (ht.leads_down hl)
  have hresolve : t.resolve cwd .followed (Files.locationText l)
      = if pathLimit ≤ (Files.locationText l).utf8ByteSize then .error .nameTooLong
        else .ok (.found l .directory) := by
    rw [resolve, if_neg hempty, if_neg hroot, walk_of_leads hleads]
  rw [directory, hresolve]
  by_cases hlong : pathLimit ≤ (Files.locationText l).utf8ByteSize
  · rw [if_pos hlong, if_pos hlong]
  · rw [if_neg hlong, if_neg hlong]

/-- The text of a directory names a file. -/
theorem IsConnected.fileName_locationText (ht : t.IsConnected) (hl : t.node? l = some .directory) :
    Files.fileName (Path.ofNames l).text = .ok (Files.locationText l) := by
  rw [Path.text_ofNames, Files.fileName_eq_ok_iff, RawText.toString_ofString]
  refine ⟨RawText.flaw?_ofString _, rfl, fun hnul => ?_⟩
  obtain hslash | ⟨n, hn, hnul⟩ := Files.mem_locationText hnul
  · exact absurd hslash (by decide)
  · exact (ht.names hl n hn).2 hnul

end FileTree

end CommandShell
