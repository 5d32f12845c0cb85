import CommandShell.Proofs.Files.Directories
import CommandShell.Proofs.Table

/-! # Trees that grow

A tree lies **below** another one if all its nodes stand there too (`FileTree.Below`). Whatever a path leads
to in the lower tree, but for a free name, it leads to in the upper tree (`FileTree.resolve_of_below`), since
a path only passes over nodes that are there. A tree grows when a node is put where none stood: so making
directories and links takes nothing away that was found (`World.Built`), and removing adds nothing. Writing
a file may change what is read, but no directory is lost (`World.Furnished`). -/

namespace CommandShell

/-- A destination is **settled** if it is no free name. -/
def Destination.IsSettled : Destination → Prop
  | .found _ _ => True
  | .free _ _ => False
  | .lost _ => True

namespace FileTree

variable {t t' t'' : FileTree} {last : LastName} {links : Nat} {place l : Location}
  {cs : List String} {d : Destination} {cwd : WorkingDirectory} {path : String} {node : Node}

/-- All nodes of one tree stand in another. -/
def Below (t t' : FileTree) : Prop := ∀ l n, t.node? l = some n → t'.node? l = some n

/-- A tree is as large as itself. -/
theorem Below.refl (t : FileTree) : t.Below t := fun _ _ h => h

/-- What grows again has grown. -/
theorem Below.trans (h : t.Below t') (h' : t'.Below t'') : t.Below t'' :=
  fun l n hn => h' l n (h l n hn)

/-- A tree grows when a node is put where none stood. -/
theorem below_put (h : t.node? l = none) (node : Node) : t.Below (t.put l node) := by
  have hl : l ≠ [] := by
    rintro rfl
    cases h
  intro l' n hn
  rw [node?_put t hl, if_neg, hn]
  rintro rfl
  rw [h] at hn
  cases hn

/-- What stands after a removal is what stood beside it. -/
theorem node?_prune (t : FileTree) (place l : Location) :
    (t.prune place).node? l = if l ≠ [] ∧ place <+: l then none else t.node? l := by
  unfold node? prune
  rw [Table.get?_filter]
  by_cases hl : l = []
  · rw [if_pos hl, if_neg fun h => h.1 hl, if_pos hl]
  · by_cases hplace : place <+: l
    · have htest : ¬(!place.isPrefixOf l) = true := by
        simpa using List.isPrefixOf_iff_prefix.mpr hplace
      rw [if_neg hl, if_neg htest, if_pos ⟨hl, hplace⟩]
    · have htest : (!place.isPrefixOf l) = true := by
        rw [Bool.not_eq_true', Bool.eq_false_iff]
        exact fun h => hplace (List.isPrefixOf_iff_prefix.mp h)
      rw [if_neg hl, if_pos htest, if_neg fun h => hplace h.2, if_neg hl]

/-! ## What paths lead to -/

/-- In a tree that grew, a walk that came to something comes to the same. -/
theorem Leads.of_below (h : Leads t last links place cs d) (ht : t.Below t') (hd : d.IsSettled) :
    Leads t' last links place cs d := by
  induction h with
  | here => exact .here
  | skip hc _ ih => exact .skip hc (ih hd)
  | up _ ih => exact .up (ih hd)
  | free => exact hd.elim
  | file hc hnode => exact .file hc (ht _ _ hnode)
  | enter hc hnode hslash _ ih => exact .enter hc (ht _ _ hnode) hslash (ih hd)
  | link hc hnode hlast => exact .link hc (ht _ _ hnode) hlast
  | follow hc hnode hslash hkept _ ih => exact .follow hc (ht _ _ hnode) hslash hkept (ih hd)

/-- **What a path leads to it leads to in a larger tree**, unless it is a free name. -/
theorem resolve_of_below (h : t.resolve cwd last path = .ok d) (ht : t.Below t')
    (hd : d.IsSettled) : t'.resolve cwd last path = .ok d := by
  obtain ⟨e, rfl⟩ | ⟨place, cs, hleads, hback⟩ := resolve_start h
  · exact resolve_lost h t' last
  · exact hback (hleads.of_below ht hd)

/-- What is found at a path is found there in a tree that grew. -/
theorem find_of_below (h : t.find cwd path = .ok node) (ht : t.Below t') :
    t'.find cwd path = .ok node := by
  unfold find at h ⊢
  cases hresolve : t.resolve cwd .followed path with
  | error e =>
    rw [hresolve] at h
    cases h
  | ok d =>
    rw [hresolve] at h
    cases d with
    | free l c => cases h
    | found l n => rw [resolve_of_below hresolve ht trivial]; exact h
    | lost e => rw [resolve_of_below hresolve ht trivial]; exact h

/-- A file that can be read is read just so in a tree that grew. -/
theorem read_of_below {r : Location × Content} (h : t.read cwd path = .ok r) (ht : t.Below t') :
    t'.read cwd path = .ok r :=
  read_eq_ok_iff.mpr (resolve_of_below (read_eq_ok_iff.mp h) ht trivial)

/-! ## What makes a tree grow -/

/-- **A new node** is put where none stood. -/
theorem exists_put_of_makeNode (h : t.makeNode cwd path node = .ok t') :
    ∃ l c, t.resolve cwd .kept path = .ok (.free l c) ∧ t.node? (l ++ [c]) = none ∧
      t' = t.put (l ++ [c]) node := by
  unfold makeNode at h
  split at h
  · cases h
  · rename_i l c hresolve
    cases h
    obtain ⟨e, he⟩ | ⟨_, _, hleads, _⟩ := resolve_start hresolve
    · cases he
    exact ⟨l, c, hresolve, hleads.node?_free rfl, rfl⟩
  · cases h

/-- Making a node lets the tree grow. -/
theorem below_of_makeNode (h : t.makeNode cwd path node = .ok t') : t.Below t' := by
  obtain ⟨l, c, _, hfree, rfl⟩ := exists_put_of_makeNode h
  exact below_put hfree node

/-! ## Directories that stay -/

/-- A path gives a working directory by leading to a directory or to one that is lost. -/
theorem directory_eq_ok {e : WorkingDirectory} (h : t.directory cwd path = .ok e) :
    ∃ d, t.resolve cwd .followed path = .ok d ∧
      ((∃ l, d = .found l .directory ∧ e = .ofLocation l) ∨ d = .lost e) := by
  unfold directory at h
  split at h
  · cases h
  · rename_i l hresolve
    cases h
    exact ⟨_, hresolve, .inl ⟨l, rfl, rfl⟩⟩
  · rename_i e hresolve
    cases h
    exact ⟨_, hresolve, .inr rfl⟩
  · cases h
  · cases h

/-- A path that leads to a directory, or to one that is lost, gives this working directory. -/
theorem directory_of_resolve {e : WorkingDirectory} (h : t.resolve cwd .followed path = .ok d)
    (hd : (∃ l, d = .found l .directory ∧ e = .ofLocation l) ∨ d = .lost e) :
    t.directory cwd path = .ok e := by
  unfold directory
  rw [h]
  obtain ⟨l, rfl, rfl⟩ | rfl := hd
  · rfl
  · rfl

/-- A path leads to a directory exactly if that is what is found. -/
theorem find_eq_directory_iff :
    t.find cwd path = .ok .directory ↔ ∃ e, t.directory cwd path = .ok e := by
  unfold find directory
  cases hresolve : t.resolve cwd .followed path with
  | error e => simp
  | ok d =>
    cases d with
    | free l c => simp
    | lost e => simp
    | found l n => cases n <;> simp

/-- The directories of a tree are **covered** by another if all paths that lead to a directory do so there,
and something stands there wherever something stands. -/
structure Covered (t t' : FileTree) : Prop where
  /-- Paths lead to the same directories. -/
  directory : ∀ cwd path e, t.directory cwd path = .ok e → t'.directory cwd path = .ok e
  /-- No location gets bare. -/
  node : ∀ l n, t.node? l = some n → ∃ n', t'.node? l = some n'

/-- What covers a covering tree covers the tree itself. -/
theorem Covered.trans (h : t.Covered t') (h' : t'.Covered t'') : t.Covered t'' where
  directory cwd path e hd := h'.directory cwd path e (h.directory cwd path e hd)
  node l n hn := by
    obtain ⟨n', hn'⟩ := h.node l n hn
    exact h'.node l n' hn'

/-- A tree that grew covers what it was. -/
theorem Below.covered (h : t.Below t') : t.Covered t' where
  directory cwd path e hd := by
    obtain ⟨d, hresolve, hd⟩ := directory_eq_ok hd
    refine directory_of_resolve (resolve_of_below hresolve h ?_) hd
    obtain ⟨l, rfl, -⟩ | rfl := hd
    · trivial
    · trivial
  node l n hn := ⟨n, h l n hn⟩

/-- **Writing** loses no directory. -/
theorem covered_of_write {file : String} {update : Option Content → Content}
    (h : t.write cwd file update = .ok t') : t.Covered t' := by
  obtain ⟨place, content, hplace, rfl⟩ := exists_put_of_write h
  constructor
  · intro cwd path e hd
    obtain ⟨d, hresolve, hd⟩ := directory_eq_ok hd
    obtain ⟨e', rfl⟩ | ⟨_, _, hleads, hback⟩ := resolve_start hresolve
    · exact directory_of_resolve (resolve_lost hresolve _ _) hd
    · obtain ⟨l, rfl, rfl⟩ | rfl := hd
      · exact directory_of_resolve (hback (hleads.put hplace content)) (.inl ⟨l, rfl, rfl⟩)
      · exact absurd rfl (hleads.ne_lost e)
  · intro l n hn
    rw [node?_put t hplace.1]
    split
    · exact ⟨_, rfl⟩
    · exact ⟨n, hn⟩

/-- The names in a directory are those under which something stands in it. -/
theorem mem_names_iff {n : String} : n ∈ t.names l ↔ ∃ node, t.node? (l ++ [n]) = some node := by
  have hne : l ++ [n] ≠ [] := by simp
  unfold names node?
  rw [List.mem_mergeSort, if_neg hne, ← Table.mem_keys_iff, List.mem_filterMap]
  constructor
  · rintro ⟨l', hmem, hl'⟩
    split at hl'
    · rename_i hdrop
      rw [← hdrop, List.dropLast_append_getLast? n hl']
      exact hmem
    · cases hl'
  · intro hmem
    exact ⟨_, hmem, by rw [if_pos List.dropLast_concat, List.getLast?_concat]⟩

end FileTree

/-! ## Worlds in which files are made -/

namespace World

variable {u v w : World} {files : FileTree}

/-- Two worlds have the same working directory, users and place of the modules that come with the shell. -/
structure SamePlaces (w w' : World) : Prop where
  /-- The working directory. -/
  cwd : w'.cwd = w.cwd
  /-- The home directory. -/
  home : w'.home = w.home
  /-- All users. -/
  accounts : w'.accounts = w.accounts
  /-- The directory of the modules that come with the shell. -/
  builtinsDir : w'.builtinsDir = w.builtinsDir

/-- A world has its own places. -/
theorem SamePlaces.refl (w : World) : w.SamePlaces w := ⟨rfl, rfl, rfl, rfl⟩

/-- Having the same places is passed on. -/
theorem SamePlaces.trans (h : u.SamePlaces v) (h' : v.SamePlaces w) : u.SamePlaces w :=
  ⟨h'.cwd.trans h.cwd, h'.home.trans h.home, h'.accounts.trans h.accounts,
    h'.builtinsDir.trans h.builtinsDir⟩

/-- Nodes were put into the files of a world where none stood. -/
structure Built (w w' : World) : Prop extends SamePlaces w w' where
  /-- The files grew. -/
  below : w.files.Below w'.files

/-- Actions that only build may be put together. -/
theorem frame_built : Shell.Frame Built where
  refl w := ⟨.refl w, .refl _⟩
  trans h h' := ⟨h.toSamePlaces.trans h'.toSamePlaces, h.below.trans h'.below⟩

/-- A world is built on when its files grow. -/
theorem built_of_below (h : w.files.Below files) : w.Built { w with files } :=
  ⟨⟨rfl, rfl, rfl, rfl⟩, h⟩

/-- Directories were made in a world, and nothing else was changed. -/
structure WithDirectories (w w' : World) : Prop where
  /-- All nodes are there still. -/
  below : w.files.Below w'.files
  /-- The new ones are directories. -/
  directory : ∀ l node, w'.files.node? l = some node → w.files.node? l = some node ∨ node = .directory
  /-- The rest is the same. -/
  rest : w.SameButFiles w'

/-- Actions that add nothing but directories may be put together. -/
theorem frame_withDirectories : Shell.Frame WithDirectories where
  refl w := ⟨.refl _, fun _ _ h => .inl h, frame_sameButFiles.refl w⟩
  trans h h' := by
    refine ⟨h.below.trans h'.below, fun l node hnode => ?_, frame_sameButFiles.trans h.rest h'.rest⟩
    obtain hnode | rfl := h'.directory l node hnode
    · exact h.directory l node hnode
    · exact .inr rfl

/-- Adding directories is building. -/
theorem WithDirectories.built (h : u.WithDirectories w) : u.Built w := by
  obtain ⟨hbelow, -, files, rfl⟩ := h
  exact built_of_below hbelow

/-- No directory of a world was lost. -/
structure Furnished (w w' : World) : Prop extends SamePlaces w w' where
  /-- The directories are covered. -/
  covered : w.files.Covered w'.files

/-- What is built on stays furnished with its directories. -/
theorem Built.furnished (h : u.Built w) : u.Furnished w := ⟨h.toSamePlaces, h.below.covered⟩

/-- Actions that keep the directories may be put together. -/
theorem frame_furnished : Shell.Frame Furnished where
  refl w := (frame_built.refl w).furnished
  trans h h' := ⟨h.toSamePlaces.trans h'.toSamePlaces, h.covered.trans h'.covered⟩

end World

namespace Files

open World Shell

variable {w u w' : World} {path : Path}

/-- **Making directories** changes nothing else. -/
theorem withDirectories_makeDirectories (path : Path) :
    Within World.WithDirectories (makeDirectories path) := by
  refine within_makeDirectories World.frame_withDirectories (fun path w => ?_) path
  obtain ⟨f, hf⟩ | ⟨name, files, _, hmake, hrun⟩ := change_cases path FileTree.makeDirectory w
  · rw [World.after_of_error hf]
    exact World.frame_withDirectories.refl w
  · rw [World.after_of_ok hrun]
    have hbelow := FileTree.below_of_makeNode hmake
    obtain ⟨l, c, -, -, rfl⟩ := FileTree.exists_put_of_makeNode hmake
    refine ⟨hbelow, fun l' node hnode => ?_, _, rfl⟩
    have hput : (w.files.put (l ++ [c]) .directory).node? l' = some node := hnode
    rw [FileTree.node?_put _ (by simp)] at hput
    split at hput
    · cases hput
      exact .inr rfl
    · exact .inl hput

/-- So it takes nothing away. -/
theorem built_makeDirectories (path : Path) : Within World.Built (makeDirectories path) :=
  fun w => (withDirectories_makeDirectories path w).built

/-- Writing a file loses no directory. -/
theorem furnished_writeBytes (path : Path) (data : List UInt8) :
    Within World.Furnished (writeBytes path data) := by
  intro w
  obtain ⟨f, hf⟩ | ⟨name, files, _, hwrite, hrun⟩ :=
    change_cases path (fun t cwd p => t.write cwd p fun _ => .bytes data) w
  · have hafter : w.after (writeBytes path data) = w := World.after_of_error hf
    rw [hafter]
    exact World.frame_furnished.refl w
  · have hafter : w.after (writeBytes path data) = { w with files } := World.after_of_ok hrun
    rw [hafter]
    exact ⟨⟨rfl, rfl, rfl, rfl⟩, FileTree.covered_of_write hwrite⟩

/-- Making a link that the files accept replaces them by what it makes of them. -/
theorem run_makeLink {target : RawText} {name targetName : String} {files : FileTree}
    (hname : fileName path.text = .ok name) (htarget : fileName target = .ok targetName)
    (h : w.files.makeLink w.cwd name targetName = .ok files) :
    (makeLink path target).run w = .ok () { w with files } := by
  unfold makeLink
  rw [htarget, run_bind_ok (run_ofExcept_ok id targetName w), hname, run_bind_ok (run_ofExcept_ok id name w),
    run_bind_ok (EStateM.run_get w), h]
  rfl

/-- **Making a link** puts it at the free name that its path leads to. -/
theorem makeLink_eq_ok {target : RawText} (h : (makeLink path target).run w = .ok () w') :
    ∃ name targetName files, fileName path.text = .ok name ∧ fileName target = .ok targetName ∧
      w.files.makeNode w.cwd name (.link targetName) = .ok files ∧ w' = { w with files } := by
  unfold makeLink at h
  cases htarget : fileName target with
  | error f =>
    rw [htarget, run_bind_error (run_ofExcept_error id f w)] at h
    cases h
  | ok targetName =>
    rw [htarget, run_bind_ok (run_ofExcept_ok id targetName w)] at h
    cases hname : fileName path.text with
    | error f =>
      rw [hname, run_bind_error (run_ofExcept_error id f w)] at h
      cases h
    | ok name =>
      rw [hname, run_bind_ok (run_ofExcept_ok id name w), run_bind_ok (EStateM.run_get w)] at h
      cases hmake : w.files.makeLink w.cwd name targetName with
      | error e =>
        rw [hmake, run_bind_error (run_ofExcept_error _ e w)] at h
        cases h
      | ok files =>
        rw [hmake, run_bind_ok (run_ofExcept_ok _ files w)] at h
        cases h
        refine ⟨name, targetName, files, rfl, rfl, ?_, rfl⟩
        -- Both texts are names by now; what is left is that the tree takes the node.
        unfold FileTree.makeLink at hmake
        split at hmake
        · cases hmake
        · split at hmake
          · cases hmake
          · exact hmake

/-! ## Asking -/

/-- A path about which the answer is yes names a file. -/
theorem exists_of_run_ask {q : FileTree → WorkingDirectory → String → Except Errno Bool}
    (h : (ask path q).run w = .ok true w') :
    ∃ name, fileName path.text = .ok name ∧ q w.files w.cwd name = .ok true := by
  unfold ask at h
  cases hname : fileName path.text with
  | error f =>
    rw [hname] at h
    cases h
  | ok name =>
    rw [hname] at h
    simp only at h
    rw [Shell.run_bind_ok (EStateM.run_get w)] at h
    cases hq : q w.files w.cwd name with
    | error e =>
      rw [hq] at h
      simp only at h
      split at h
      · cases h
      · cases h
    | ok answer =>
      rw [hq] at h
      cases h
      exact ⟨name, rfl, hq⟩

/-- A question that is answered changed nothing. -/
theorem run_ask_eq {q : FileTree → WorkingDirectory → String → Except Errno Bool} {there : Bool}
    (h : (ask path q).run w = .ok there w') : w' = w := by
  have hsame := (within_ask (R := fun w w' => w' = w)
    ⟨fun _ => rfl, fun huv hvw => hvw.trans huv⟩ path q) w
  rw [World.after_of_ok h] at hsame
  exact hsame

end Files

end CommandShell
