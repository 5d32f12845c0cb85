import CommandShell.Proofs.Files.Growth

/-! # Entries of directories

A directory has an entry of a name if the path with this name behind it leads somewhere, if only to a link
that leads nowhere itself (`World.HasEntry`). Putting nodes where none stood keeps all entries, and making a
link makes one. The entries are the nodes that stand at the location of the directory
(`FileTree.Leads.split`, `FileTree.Leads.join`). -/

namespace CommandShell

namespace FileTree

variable {t t' : FileTree} {last : LastName} {links : Nat} {place l : Location}
  {cs ds : List String} {c n : String} {d d' : Destination} {cwd : WorkingDirectory} {path : String}
  {node : Node}

/-! ## The last name -/

/-- What a path leads to when its last name is followed is there when it is kept. -/
theorem exists_resolve_kept (h : t.resolve cwd .followed path = .ok d) (hd : d.IsSettled) :
    ∃ d', t.resolve cwd .kept path = .ok d' ∧ d'.IsSettled := by
  obtain ⟨e, rfl⟩ | ⟨place, cs, hleads, hback⟩ := resolve_start h
  · exact ⟨_, resolve_lost h t .kept, trivial⟩
  · have hfree (l : Location) (c : String) : d ≠ .free l c := by
      rintro rfl
      exact hd
    obtain ⟨l, n, hkept⟩ := hleads.kept hfree
    exact ⟨_, hback hkept, trivial⟩

/-- A node that is put under a free name is where the path leads from then on, if its last name is kept. -/
theorem Leads.put_kept (h : Leads t .kept links place cs d) (hd : d = .free l c) (node : Node) :
    Leads (t.put (l ++ [c]) node) .kept links place cs (.found (l ++ [c]) node) := by
  have hne : l ++ [c] ≠ [] := by simp
  have hbelow : t.Below (t.put (l ++ [c]) node) := below_put (h.node?_free hd) node
  induction h with
  | here => cases hd
  | skip hc _ ih => exact .skip hc (ih hd)
  | up _ ih => exact .up (ih hd)
  | free hc _ =>
    cases hd
    have hnode : (t.put (l ++ [c]) node).node? (l ++ [c]) = some node := by
      rw [node?_put t hne, if_pos rfl]
    cases node with
    | directory => exact .enter hc hnode (fun h => by cases h.1) .here
    | file content => exact .file hc hnode
    | link target => exact .link hc hnode rfl
  | file => cases hd
  | enter hc hnode hslash _ ih => exact .enter hc (hbelow _ _ hnode) hslash (ih hd)
  | link => cases hd
  | follow hc hnode hslash hkept _ ih =>
    exact .follow hc (hbelow _ _ hnode) hslash hkept (ih hd)

/-- After a node was made, the path that it was made at leads to it. -/
theorem resolve_of_makeNode (h : t.makeNode cwd path node = .ok t') :
    ∃ l, t'.resolve cwd .kept path = .ok (.found l node) := by
  obtain ⟨l, c, hresolve, _, rfl⟩ := exists_put_of_makeNode h
  obtain ⟨e, he⟩ | ⟨_, _, hleads, hback⟩ := resolve_start hresolve
  · cases he
  · exact ⟨l ++ [c], hback (hleads.put_kept rfl node)⟩

/-- Components lead to one destination. -/
theorem Leads.unique (h : Leads t last links place cs d) (h' : Leads t last links place cs d') :
    d = d' := by
  have hwalk := walk_of_leads h
  rw [walk_of_leads h'] at hwalk
  exact (Except.ok.inj hwalk).symm

/-- **A path with one more name** leads to the node of that name in the directory that the path leads to, or
to a free name in there. -/
theorem Leads.split (h : Leads t .kept links place cs d) (hcs : cs = ds ++ [n]) (hn : IsName n) :
    ∃ l, Leads t .followed links place ds (.found l .directory) ∧
      (d = .free l n ∧ t.node? (l ++ [n]) = none ∨
        ∃ node, d = .found (l ++ [n]) node ∧ t.node? (l ++ [n]) = some node) := by
  have hslash (rest : List String) : ¬(LastName.followed = .written ∧ isSlashed rest = true) := by
    rintro ⟨h, _⟩
    cases h
  have hkept (rest : List String) : ¬(rest = [] ∧ LastName.followed = .kept) := by
    rintro ⟨_, h⟩
    cases h
  -- The last name is cut off where the walk comes to it; every step before leaves it at the end.
  induction h generalizing ds with
  | here => exact absurd hcs (by simp)
  | skip hc _ ih =>
    cases ds with
    | nil => exact absurd ((List.cons.inj hcs).1 ▸ hc) hn.1
    | cons c ds =>
      obtain ⟨rfl, hrest⟩ := List.cons.inj hcs
      obtain ⟨l, hl, hd⟩ := ih hrest
      exact ⟨l, .skip hc hl, hd⟩
  | up _ ih =>
    cases ds with
    | nil => exact absurd (List.cons.inj hcs).1.symm hn.2.1
    | cons c ds =>
      obtain ⟨rfl, hrest⟩ := List.cons.inj hcs
      obtain ⟨l, hl, hd⟩ := ih hrest
      exact ⟨l, .up hl, hd⟩
  | @free _ place _ hc hnode =>
    obtain ⟨rfl, hlast⟩ := List.append_inj' (show [] ++ _ = _ from hcs) rfl
    cases hlast
    exact ⟨place, .here, .inl ⟨rfl, hnode⟩⟩
  | @file _ place _ _ hc hnode =>
    obtain ⟨rfl, hlast⟩ := List.append_inj' (show [] ++ _ = _ from hcs) rfl
    cases hlast
    exact ⟨place, .here, .inr ⟨_, rfl, hnode⟩⟩
  | @link _ place _ _ hc hnode _ =>
    obtain ⟨rfl, hlast⟩ := List.append_inj' (show [] ++ _ = _ from hcs) rfl
    cases hlast
    exact ⟨place, .here, .inr ⟨_, rfl, hnode⟩⟩
  | @enter _ place _ rest _ hc hnode _ h ih =>
    cases ds with
    | nil =>
      obtain ⟨rfl, rfl⟩ := List.cons.inj hcs
      cases h
      exact ⟨place, .here, .inr ⟨_, rfl, hnode⟩⟩
    | cons c ds =>
      obtain ⟨rfl, hrest⟩ := List.cons.inj hcs
      obtain ⟨l, hl, hd⟩ := ih hrest
      exact ⟨l, .enter hc hnode (hslash _) hl, hd⟩
  | @follow _ _ _ target rest _ hc hnode _ hlink h ih =>
    cases ds with
    | nil => exact absurd ⟨(List.cons.inj hcs).2, rfl⟩ hlink
    | cons c ds =>
      obtain ⟨rfl, hrest⟩ := List.cons.inj hcs
      -- The target of a link stands in front of what is left, and the last name still ends that.
      have htarget : Path.components target ++ rest = (Path.components target ++ ds) ++ [n] := by
        rw [hrest, List.append_assoc]
        rfl
      obtain ⟨l, hl, hd⟩ := ih htarget
      exact ⟨l, .follow hc hnode (hslash _) (hkept _) hl, hd⟩

/-- **A node in a directory** is what the path leads to with its name behind. -/
theorem Leads.join (h : Leads t .followed links place ds d) (hd : d = .found l .directory)
    (hn : IsName n) (hnode : t.node? (l ++ [n]) = some node) :
    Leads t .kept links place (ds ++ [n]) (.found (l ++ [n]) node) := by
  have hslash (rest : List String) : ¬(LastName.kept = .written ∧ isSlashed rest = true) := by
    rintro ⟨h, _⟩
    cases h
  induction h with
  | here =>
    cases hd
    cases node with
    | directory => exact .enter hn hnode (hslash _) .here
    | file content => exact .file hn hnode
    | link target => exact .link hn hnode rfl
  | skip hc _ ih => exact .skip hc (ih hd)
  | up _ ih => exact .up (ih hd)
  | free => cases hd
  | file => cases hd
  | enter hc hnode' _ _ ih => exact .enter hc hnode' (hslash _) (ih hd)
  | link _ _ hlast => cases hlast
  | follow hc hnode' _ _ _ ih =>
    refine .follow hc hnode' (hslash _) (fun h => by simpa using h.1) ?_
    have hrest := ih hd
    rw [List.append_assoc] at hrest
    exact hrest

end FileTree

/-! ## Entries -/

namespace World

variable {w u : World} {directory : Path} {n : String}

/-- A directory has an entry of a name: the path leads somewhere, if its last name is kept. -/
def HasEntry (w : World) (directory : Path) (n : String) : Prop :=
  ∃ name d, Files.fileName (directory.child n).text = .ok name ∧
    w.files.resolve w.cwd .kept name = .ok d ∧ d.IsSettled

/-- What is built keeps all entries. -/
theorem HasEntry.of_built (h : w.HasEntry directory n) (hbuilt : w.Built u) :
    u.HasEntry directory n := by
  obtain ⟨name, d, hname, hresolve, hd⟩ := h
  refine ⟨name, d, hname, ?_, hd⟩
  rw [hbuilt.cwd]
  exact FileTree.resolve_of_below hresolve hbuilt.below hd

end World

namespace Files

open World

variable {w w' : World} {directory : Path} {n : String}

/-- What is there is an entry. -/
theorem hasEntry_of_isThere (h : (isThere (directory.child n)).run w = .ok true w') :
    w.HasEntry directory n := by
  obtain ⟨name, hname, hanswer⟩ := exists_of_run_ask h
  cases hfind : w.files.find w.cwd name with
  | error e =>
    rw [hfind] at hanswer
    cases hanswer
  | ok node =>
    obtain ⟨d, hresolve⟩ := FileTree.exists_resolve_of_find hfind
    have hd : d.IsSettled := by
      rw [FileTree.find, hresolve] at hfind
      cases d with
      | free l c => cases hfind
      | found l node => trivial
      | lost e => trivial
    obtain ⟨d', hkept, hd'⟩ := FileTree.exists_resolve_kept hresolve hd
    exact ⟨name, d', hname, hkept, hd'⟩

/-- A link is an entry, wherever it leads. -/
theorem hasEntry_of_isLink (h : (isLink (directory.child n)).run w = .ok true w') :
    w.HasEntry directory n := by
  obtain ⟨name, hname, hanswer⟩ := exists_of_run_ask h
  cases hresolve : w.files.resolve w.cwd .kept name with
  | error e =>
    rw [hresolve] at hanswer
    cases hanswer
  | ok d =>
    rw [hresolve] at hanswer
    cases d with
    | free l c => cases hanswer
    | found l node => exact ⟨name, _, hname, hresolve, trivial⟩
    | lost e => cases hanswer

/-- **Making a link** makes an entry. -/
theorem hasEntry_of_makeLink {target : RawText}
    (h : (makeLink (directory.child n) target).run w = .ok () w') :
    w.Built w' ∧ w'.HasEntry directory n := by
  obtain ⟨name, targetName, files, hname, -, hmake, rfl⟩ := makeLink_eq_ok h
  obtain ⟨l, hresolve⟩ := FileTree.resolve_of_makeNode hmake
  exact ⟨built_of_below (FileTree.below_of_makeNode hmake), name, _, hname, hresolve, trivial⟩

end Files

end CommandShell
