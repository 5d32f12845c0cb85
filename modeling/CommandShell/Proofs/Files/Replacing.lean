import CommandShell.Proofs.Files.Entries

/-! # Replacing entries of a directory

Where an absolute path leads to a directory by nodes that stay (`FileTree.Anchored`), its entries are the
nodes in that directory. Removing one of them takes away nothing but this node and what is below it
(`Files.cut_remove`), so the other entries stay (`FileTree.Anchored.hasEntry_of_cut`). -/

namespace CommandShell

namespace FileTree

/-- A name of an entry: it names something, and it is a single component. -/
def IsEntryName (n : String) : Prop := IsName n ∧ '/' ∉ n.toList

instance (n : String) : Decidable (IsEntryName n) := inferInstanceAs (Decidable (IsName n ∧ '/' ∉ n.toList))

/-- Entries of a directory do not stand below each other. -/
theorem not_prefix_of_ne {m n : String} (h : m ≠ n) (l : Location) : ¬l ++ [m] <+: l ++ [n] := by
  intro hstart
  have hlast := hstart.eq_of_length (by simp)
  exact h (by simpa using hlast)

end FileTree

/-- The path of an entry has its name as one more component. -/
theorem Path.child_of_isEntryName {n : String} (hn : FileTree.IsEntryName n) (p : Path) :
    p.child n = ⟨p.root, p.parts ++ [RawText.ofString n]⟩ := by
  obtain ⟨⟨hblank, -, -⟩, hslash⟩ := hn
  have hplain : ∀ c ∈ (RawText.ofString n).points, (c == CodePoint.char '/') = false := by
    intro c hc
    obtain ⟨c', hc', rfl⟩ := List.mem_map.mp hc
    refine beq_false_of_ne fun h => ?_
    cases h
    exact hslash hc'
  -- Without a slash the name is one piece, and it is not one that is dropped.
  have hpieces : pieces (RawText.ofString n) = [RawText.ofString n] := by
    rw [pieces, Text.splitWhere_of_forall hplain]
    rfl
  have hkept : (RawText.ofString n != "" && RawText.ofString n != ".") = true := by
    rw [Bool.and_eq_true, bne_iff_ne, bne_iff_ne]
    exact ⟨fun h => hblank (.inl (RawText.ofString_inj.mp h)),
      fun h => hblank (.inr (RawText.ofString_inj.mp h))⟩
  have hroot : rootOf n = "" := by
    unfold rootOf
    split
    · rename_i h
      exact absurd (h ▸ List.mem_cons_self) hslash
    · rename_i h
      exact absurd (h ▸ List.mem_cons_self) hslash
    · rename_i h
      exact absurd (h ▸ List.mem_cons_self) hslash
    · rfl
  have hpath : ofString n = ⟨"", [RawText.ofString n]⟩ := by
    rw [ofString, ofText, RawText.toString_ofString, hroot, hpieces]
    exact congrArg (Path.mk "") (List.filter_cons_of_pos hkept)
  rw [child, hpath]
  rfl

namespace FileTree

/-- In a tree an absolute path leads to the directory at a location. -/
structure Anchored (t : FileTree) (directory : Path) (l : Location) : Prop where
  /-- The path is absolute. -/
  rooted : directory.IsRooted
  /-- It is not that of the root. -/
  parts : directory.parts ≠ []
  /-- It leads to the directory. -/
  leads : ∀ name, Files.fileName directory.text = .ok name →
    Leads t .followed maxLinks [] (Path.components name) (.found l .directory)

variable {base t : FileTree} {directory : Path} {l : Location} {n m name : String} {d : Destination}
  {cwd : WorkingDirectory}

/-- What the path of an entry leads to is what stands in the directory under its name. -/
theorem Anchored.resolve_child (h : base.Anchored directory l) (hbelow : base.Below t)
    (hn : IsEntryName n) (hname : Files.fileName (directory.child n).text = .ok name)
    (hresolve : t.resolve cwd .kept name = .ok d) :
    (d = .free l n ∨ ∃ node, d = .found (l ++ [n]) node ∧ t.node? (l ++ [n]) = some node) ∧
      ∀ {t' : FileTree} {cwd' : WorkingDirectory} {node : Node}, base.Below t' →
        t'.node? (l ++ [n]) = some node → t'.resolve cwd' .kept name = .ok (.found (l ++ [n]) node) := by
  have hchild := directory.child_of_isEntryName hn
  have hrooted : (directory.child n).IsRooted := by
    rw [hchild]
    exact h.rooted
  have hroot := hrooted.rootOf_name hname
  -- The components are those of the directory and the name.
  have hcomponents : ∃ start, Files.fileName directory.text = .ok start ∧
      Path.components name = Path.components start ++ [n] := by
    rw [hchild, Path.text_concat h.parts] at hname
    obtain ⟨start, hstart, rfl⟩ := Files.fileName_of_append hname
    obtain ⟨start, hdirectory, rfl⟩ := Files.fileName_of_append hstart
    refine ⟨start, hdirectory, ?_⟩
    rw [RawText.toString_ofString, RawText.toString_ofString]
    exact Path.components_append hn.2 start
  obtain ⟨start, hdirectory, hcomponents⟩ := hcomponents
  have hleads := h.leads start hdirectory
  obtain ⟨hchildLeads, hback⟩ := leads_of_resolve hroot hresolve
  constructor
  · obtain ⟨l', hl', hd⟩ := hchildLeads.split hcomponents hn.1
    cases hl'.unique (hleads.of_below hbelow trivial)
    exact hd.imp_left fun hfree => hfree.1
  · intro t' cwd' node hbelow' hnode
    have hjoin := (hleads.of_below hbelow' trivial).join rfl hn.1 hnode
    rw [← hcomponents] at hjoin
    rw [resolve_cwd hroot t' cwd' cwd]
    exact hback hjoin

/-- What stands beside a location that is bare in the lower tree stands there still. -/
theorem Below.of_node {t' : FileTree} (h : base.Below t) {place : Location}
    (hbare : ∀ l, place <+: l → base.node? l = none)
    (hnode : ∀ l, ¬place <+: l → t'.node? l = t.node? l) : base.Below t' := by
  intro l node hl
  rw [hnode l, h l node hl]
  intro hplace
  rw [hbare l hplace] at hl
  cases hl

end FileTree

namespace FileTree

/-! ## Lost working directories -/

variable {t : FileTree} {cwd : WorkingDirectory} {d : Destination}

/-- From a working directory that is there the tree is walked at once. -/
theorem walkOut_of_there (h : cwd.lost = 0) (last : LastName) (cs : List String) :
    t.walkOut last cwd cs = t.walk last maxLinks cwd.place cs := by
  cases cs with
  | nil => rw [walkOut, if_pos h, walk]
  | cons c cs => rw [walkOut, if_pos h]

/-- **From a working directory that is lost** paths lead at most where they led when less of it was. -/
theorem walkOut_of_lost {last : LastName} {place : Location} {lost lost' : Nat} {cs : List String}
    (h : t.walkOut last ⟨place, lost'⟩ cs = .ok d) (hd : ∀ e, d ≠ .lost e) (hlost : lost ≤ lost') :
    t.walkOut last ⟨place, lost⟩ cs = .ok d := by
  by_cases hthere : lost' = 0
  · obtain rfl : lost = lost' := by omega
    exact h
  induction cs generalizing place lost lost' with
  | nil =>
    rw [walkOut, if_neg hthere] at h
    cases h
    exact absurd rfl (hd _)
  | cons c cs ih =>
    -- Only blank components and steps up lead out, and those lead the same way through the tree.
    have hnext {place : Location} {lost lost' : Nat} (h : t.walkOut last ⟨place, lost'⟩ cs = .ok d)
        (hlost : lost ≤ lost') : t.walkOut last ⟨place, lost⟩ cs = .ok d := by
      by_cases hthere : lost' = 0
      · obtain rfl : lost = lost' := by omega
        exact h
      · exact ih h hlost hthere
    rw [walkOut, if_neg hthere] at h
    rw [walkOut]
    by_cases hblank : c = "" ∨ c = "."
    · rw [if_pos hblank] at h
      have hrest := hnext h hlost
      by_cases hzero : lost = 0
      · rw [if_pos hzero, walk, if_pos hblank]
        rwa [walkOut_of_there hzero] at hrest
      · rwa [if_neg hzero, if_pos hblank]
    rw [if_neg hblank] at h
    by_cases hup : c = ".."
    · rw [if_pos hup] at h
      have hrest : t.walkOut last ⟨place.dropLast, lost - 1⟩ cs = .ok d := hnext h (by simp; omega)
      by_cases hzero : lost = 0
      · rw [if_pos hzero, walk, if_neg hblank, if_pos hup]
        rwa [walkOut_of_there (by simp [hzero])] at hrest
      · rwa [if_neg hzero, if_neg hblank, if_pos hup]
    · rw [if_neg hup] at h
      cases h

/-- A removal may lose the working directory. From there paths lead at most where they led before. -/
theorem resolve_of_without {last : LastName} {path : String} {removed : Location} (hremoved : removed ≠ [])
    (h : t.resolve (cwd.without removed) last path = .ok d) (hd : ∀ e, d ≠ .lost e) :
    t.resolve cwd last path = .ok d := by
  unfold WorkingDirectory.without at h
  split at h
  · rename_i hprefix
    have hlost : cwd.lost ≤ cwd.place.length + 1 - removed.length := by
      have hlength := (List.isPrefixOf_iff_prefix.mp hprefix).length_le
      have hpos := List.length_pos_iff.mpr hremoved
      rw [List.length_take] at hlength
      omega
    unfold resolve at h ⊢
    split at h
    · cases h
    rename_i hempty
    split at h
    · cases h
    rename_i hlong
    rw [if_neg hempty, if_neg hlong]
    split at h
    · rename_i hroot
      rw [if_pos hroot]
      exact walkOut_of_lost h hd hlost
    · rename_i hroot
      rwa [if_neg hroot]
  · exact h

end FileTree

/-! ## Removals -/

/-- One world became another one by removals at and below a location. -/
structure World.Cut (place : Location) (w w' : World) : Prop where
  /-- All other nodes are the same. -/
  node : ∀ l, ¬place <+: l → w'.files.node? l = w.files.node? l
  /-- Nothing was added. -/
  below : w'.files.Below w.files
  /-- Paths lead on as they did, even if the working directory was lost. -/
  paths : ∀ {t : FileTree} {last : LastName} {path : String} {d : Destination},
    t.resolve w'.cwd last path = .ok d → (∀ e, d ≠ .lost e) → t.resolve w.cwd last path = .ok d
  /-- The rest is the same. -/
  rest : ∃ files cwd, w' = { w with files, cwd }

namespace World

variable {place : Location} {w w' : World}

/-- A cut leaves the home directory. -/
theorem Cut.home (h : w.Cut place w') : w'.home = w.home := by
  obtain ⟨_, _, rfl⟩ := h.rest
  rfl

/-- A cut leaves the users. -/
theorem Cut.accounts (h : w.Cut place w') : w'.accounts = w.accounts := by
  obtain ⟨_, _, rfl⟩ := h.rest
  rfl

/-- Actions that only cut below one place may be put together. -/
theorem frame_cut (place : Location) : Shell.Frame (Cut place) where
  refl w := ⟨fun _ _ => rfl, .refl _, fun h _ => h, w.files, w.cwd, rfl⟩
  trans h h' := by
    refine ⟨fun l hl => (h'.node l hl).trans (h.node l hl), h'.below.trans h.below,
      fun hd hne => h.paths (h'.paths hd hne) hne, ?_⟩
    obtain ⟨_, _, rfl⟩ := h.rest
    obtain ⟨files, cwd, rfl⟩ := h'.rest
    exact ⟨files, cwd, rfl⟩

end World

namespace Files

open World Shell

variable {w w' : World} {path directory : Path} {place l : Location} {n : String} {base : FileTree}

/-- Taking away what stands at a place or below it is a cut at that place. -/
theorem cut_takeAway (hplace : place ≠ []) (h : place <+: l) : Within (Cut place) (takeAway l) := by
  intro w
  have hl : l ≠ [] := fun hl => hplace (List.prefix_nil.mp (hl ▸ h))
  refine ⟨fun l' hl' => ?_, fun l' node hnode => ?_,
    fun {_ _ _ _} hd hne => FileTree.resolve_of_without hl hd hne, _, _, rfl⟩
  · show (w.files.prune l).node? l' = _
    rw [FileTree.node?_prune, if_neg fun hl => hl' (h.trans hl.2)]
  · have hpruned : (w.files.prune l).node? l' = some node := hnode
    rw [FileTree.node?_prune] at hpruned
    split at hpruned
    · cases hpruned
    · exact hpruned

/-- The place of a path is what it leads to when its last name is kept, and locating it changes nothing.
-/
theorem locate_eq_ok (h : (locate path).run w = .ok place w') :
    w' = w ∧ ∃ name node, fileName path.text = .ok name ∧
      w.files.resolve w.cwd .kept name = .ok (.found place node) := by
  unfold locate at h
  obtain ⟨rfl, name, hname, hplace⟩ := query_eq_ok h
  refine ⟨rfl, name, ?_⟩
  split at hplace
  · cases hplace
  · rename_i place node hresolve
    cases hplace
    exact ⟨node, hname, hresolve⟩
  · cases hplace

/-- **Removing what a path names** takes away nothing but the node there and what is below. -/
theorem remove_eq_ok (h : (remove path).run w = .ok () w') : ∃ name place node,
    fileName path.text = .ok name ∧ w.files.resolve w.cwd .kept name = .ok (.found place node) ∧
      (place ≠ [] → w.Cut place w') := by
  unfold remove at h
  obtain ⟨place, w₁, hfirst, hrest⟩ := run_bind_eq_ok_iff.mp h
  obtain ⟨rfl, name, node, hname, hresolve⟩ := locate_eq_ok hfirst
  refine ⟨name, place, node, hname, hresolve, fun hplace => ?_⟩
  rw [run_bind_ok (EStateM.run_get w₁)] at hrest
  obtain ⟨_, w₂, hinside, hrest⟩ := run_bind_eq_ok_iff.mp hrest
  have hcut : w₁.Cut place w₂ := ((frame_cut _).within_forM fun _ _ =>
    cut_takeAway hplace (List.prefix_append _ _)).of_ok hinside
  obtain ⟨place', w₃, hsecond, hrest⟩ := run_bind_eq_ok_iff.mp hrest
  obtain ⟨rfl, name', node', hname', hresolve'⟩ := locate_eq_ok hsecond
  cases hname.symm.trans hname'
  -- What is still found was found there before.
  have hbefore := FileTree.resolve_of_below (hcut.paths hresolve' fun _ => Destination.noConfusion)
    hcut.below trivial
  cases hresolve.symm.trans hbefore
  exact (frame_cut _).trans hcut ((cut_takeAway hplace List.prefix_rfl).of_ok hrest)

/-- **Removing an entry** takes away nothing but the node of its name and what is below. -/
theorem cut_remove (h : (remove (directory.child n)).run w = .ok () w')
    (hdirectory : base.Anchored directory l) (hbelow : base.Below w.files)
    (hn : FileTree.IsEntryName n) : w.Cut (l ++ [n]) w' := by
  obtain ⟨name, place, node, hname, hresolve, hcut⟩ := remove_eq_ok h
  obtain ⟨hd | ⟨node', hd, -⟩, -⟩ := hdirectory.resolve_child hbelow hn hname hresolve
  · cases hd
  · cases hd
    exact hcut (by simp)

end Files

/-- The other entries of a directory stay when one of them is removed. -/
theorem FileTree.Anchored.hasEntry_of_cut {base : FileTree} {directory : Path} {l : Location}
    {n m : String} {w w' : World} (h : base.Anchored directory l) (hbelow : base.Below w.files)
    (hn : IsEntryName n) (hentry : w.HasEntry directory n) (hm : m ≠ n)
    (hcut : w.Cut (l ++ [m]) w') (hbelow' : base.Below w'.files) : w'.HasEntry directory n := by
  obtain ⟨name, d, hname, hresolve, hd⟩ := hentry
  obtain ⟨hchild, hback⟩ := h.resolve_child hbelow hn hname hresolve
  obtain rfl | ⟨node, rfl, hnode⟩ := hchild
  · exact hd.elim
  · rw [← hcut.node _ (not_prefix_of_ne hm l)] at hnode
    exact ⟨name, _, hname, hback hbelow' hnode, trivial⟩

end CommandShell
