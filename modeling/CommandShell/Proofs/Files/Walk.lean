import CommandShell.FileTree

/-! # Following paths

Components that lead somewhere do so in steps (`Leads`): each step passes over a component, goes up,
enters a directory or follows a link, and the last one ends at what the tree holds, or at a free name.
Putting a file at a location changes where paths lead only at that location (`Leads.put`): it bends no
path, since only directories and links do. -/

namespace CommandShell

/-- A node is a file. -/
def Node.IsFile (n : Node) : Prop := ∃ content, n = .file content

/-- A file is a file, whatever it holds. -/
@[simp] theorem Node.isFile_file (content : Content) : (Node.file content).IsFile := ⟨content, rfl⟩

/-- A directory is no file. -/
theorem Node.not_isFile_directory : ¬Node.directory.IsFile := by
  rintro ⟨content, h⟩
  cases h

/-- A link is no file. -/
theorem Node.not_isFile_link (target : String) : ¬(Node.link target).IsFile := by
  rintro ⟨content, h⟩
  cases h

/-- Whether a node is a directory. -/
def Node.isDirectory : Node → Bool
  | .directory => true
  | _ => false

/-- Whether a node is a link. -/
def Node.isLink : Node → Bool
  | .link _ => true
  | _ => false

/-- Where a path leads once a file was put at a location that takes one. -/
def Destination.withFile (place : Location) (content : Content) : Destination → Destination
  | .found l (.file old) => .found l (.file (if l = place then content else old))
  | .found l n => .found l n
  | .free d name =>
    if d ++ [name] = place then .found place (.file content) else .free d name
  | .lost d => .lost d

/-- A file that is written again holds what was written. -/
@[simp] theorem Destination.withFile_file_self (place : Location) (old content : Content) :
    (Destination.found place (.file old)).withFile place content
      = .found place (.file content) := by
  rw [withFile, if_pos rfl]

/-- A free name at which a file is put leads to this file. -/
@[simp] theorem Destination.withFile_free_self (d : Location) (name : String) (content : Content) :
    (Destination.free d name).withFile (d ++ [name]) content
      = .found (d ++ [name]) (.file content) := if_pos rfl

namespace FileTree

/-! ## Nodes -/

/-- A node that was put stands at its location, and everything else stands where it stood. -/
theorem node?_put (t : FileTree) {place : Location} (hplace : place ≠ []) (node : Node)
    (l : Location) : (t.put place node).node? l = if place = l then some node else t.node? l := by
  unfold node? put
  simp only [Table.get?_put]
  -- At the root there is always a directory.
  by_cases hl : l = []
  · rw [if_pos hl, if_pos hl, if_neg fun h => hplace (h.trans hl)]
  · rw [if_neg hl, if_neg hl]

/-- A location **takes a file** if a file stands there already, or nothing does. -/
def TakesFile (t : FileTree) (place : Location) : Prop :=
  place ≠ [] ∧ ∀ n, t.node? place = some n → n.IsFile

/-- Directories and links stay when a file is put somewhere. -/
theorem TakesFile.node?_put {t : FileTree} {place l : Location} (h : t.TakesFile place) {n : Node}
    (hn : t.node? l = some n) (hfile : ¬n.IsFile) (node : Node) :
    (t.put place node).node? l = some n := by
  have hne : place ≠ l := by
    rintro rfl
    exact hfile (h.2 n hn)
  rw [FileTree.node?_put t h.1, if_neg hne, hn]

/-! ## Steps -/

/-- A component that names something, and is not too long to do so. -/
def IsName (c : String) : Prop :=
  ¬(c = "" ∨ c = ".") ∧ c ≠ ".." ∧ c.utf8ByteSize ≤ maxName

instance (c : String) : Decidable (IsName c) :=
  inferInstanceAs (Decidable (¬(c = "" ∨ c = ".") ∧ c ≠ ".." ∧ c.utf8ByteSize ≤ maxName))

/-- One name is not a list that ends with a slash. -/
theorem IsName.singleton_ne {c : String} (hc : IsName c) (ds : List String) : [c] ≠ ds ++ [""] := by
  intro heq
  have hlast := congrArg List.getLast? heq
  rw [List.getLast?_concat] at hlast
  exact hc.1 (.inl (Option.some.inj hlast))

/-- Components lead from a directory to a destination, through at most so many links. -/
inductive Leads (t : FileTree) (last : LastName) :
    Nat → Location → List String → Destination → Prop
  | here {links place} : Leads t last links place [] (.found place .directory)
  | skip {links place c rest d} (hc : c = "" ∨ c = ".") (h : Leads t last links place rest d) :
      Leads t last links place (c :: rest) d
  | up {links place rest d} (h : Leads t last links place.dropLast rest d) :
      Leads t last links place (".." :: rest) d
  | free {links place c} (hc : IsName c) (hnode : t.node? (place ++ [c]) = none) :
      Leads t last links place [c] (.free place c)
  | file {links place c content} (hc : IsName c)
      (hnode : t.node? (place ++ [c]) = some (.file content)) :
      Leads t last links place [c] (.found (place ++ [c]) (.file content))
  | enter {links place c rest d} (hc : IsName c)
      (hnode : t.node? (place ++ [c]) = some .directory)
      (hslash : ¬(last = .written ∧ isSlashed rest = true))
      (h : Leads t last links (place ++ [c]) rest d) : Leads t last links place (c :: rest) d
  | link {links place c target} (hc : IsName c)
      (hnode : t.node? (place ++ [c]) = some (.link target)) (hlast : last = .kept) :
      Leads t last links place [c] (.found (place ++ [c]) (.link target))
  | follow {links place c target rest d} (hc : IsName c)
      (hnode : t.node? (place ++ [c]) = some (.link target))
      (hslash : ¬(last = .written ∧ isSlashed rest = true)) (hkept : ¬(rest = [] ∧ last = .kept))
      (h : Leads t last links (if Path.rootOf target = "" then place else [])
        (Path.components target ++ rest) d) : Leads t last (links + 1) place (c :: rest) d

variable {t : FileTree} {last : LastName} {links : Nat} {place : Location} {cs : List String}
  {d : Destination}

/-- Every walk is made of the steps of `Leads`. -/
theorem leads_of_walk (h : t.walk last links place cs = .ok d) : Leads t last links place cs d := by
  fun_induction walk t last links place cs with
  | case1 links place =>
    cases h
    exact .here
  | case2 links place c rest hc ih => exact .skip hc (ih h)
  | case3 links place rest hc ih => exact .up (ih h)
  | case4 => cases h
  | case5 => cases h
  | case6 links place c hc hup hlong hnode hslash =>
    cases h
    exact .free ⟨hc, hup, Nat.not_lt.mp hlong⟩ hnode
  | case7 => cases h
  | case8 links place c rest hc hup hslash hlong hnode ih =>
    exact .enter ⟨hc, hup, Nat.not_lt.mp hlong⟩ hnode hslash (ih h)
  | case9 links place c hc hup hlong content hnode hslash =>
    cases h
    exact .file ⟨hc, hup, Nat.not_lt.mp hlong⟩ hnode
  | case10 => cases h
  | case11 links place c rest hc hup hslash hlong target hnode hkept =>
    obtain ⟨rfl, hlast⟩ := hkept
    cases h
    exact .link ⟨hc, hup, Nat.not_lt.mp hlong⟩ hnode hlast
  | case12 => cases h
  | case13 place c rest hc hup hslash hlong target hnode hkept links start ih =>
    exact .follow ⟨hc, hup, Nat.not_lt.mp hlong⟩ hnode hslash hkept (ih h)

/-- A name is looked up in the directory where the walk stands: a directory is entered, a file or a free
place ends the walk, and a link is followed. -/
theorem walk_name {c : String} (hc : IsName c) {rest : List String}
    (hslash : ¬(last = .written ∧ isSlashed rest = true)) :
    t.walk last links place (c :: rest) = match t.node? (place ++ [c]) with
      | none => if rest = [] then .ok (.free place c) else .error .noEntry
      | some .directory => t.walk last links (place ++ [c]) rest
      | some (.file content) =>
        if rest = [] then .ok (.found (place ++ [c]) (.file content)) else .error .notDirectory
      | some (.link target) =>
        if rest = [] ∧ last = .kept then .ok (.found (place ++ [c]) (.link target))
        else match links with
          | 0 => .error .linkLoop
          | links + 1 =>
            t.walk last links (if Path.rootOf target = "" then place else [])
              (Path.components target ++ rest) := by
  obtain ⟨hblank, hup, hlong⟩ := hc
  rw [walk, if_neg hblank, if_neg hup, if_neg hslash]
  exact if_neg (Nat.not_lt.mpr hlong)

/-- The steps of `Leads` make a walk. -/
theorem walk_of_leads (h : Leads t last links place cs d) : t.walk last links place cs = .ok d := by
  have hend : ¬(last = .written ∧ isSlashed [] = true) := by
    rintro ⟨_, h⟩
    cases h
  -- Every constructor is one branch of the walk.
  induction h with
  | here => rw [walk]
  | skip hc h ih => rw [walk, if_pos hc, ih]
  | up h ih =>
    have hname : ¬(".." = "" ∨ ".." = ".") := by decide
    rw [walk, if_neg hname, if_pos rfl, ih]
  | free hc hnode =>
    rw [walk_name hc hend, hnode]
    rfl
  | file hc hnode =>
    rw [walk_name hc hend, hnode]
    rfl
  | enter hc hnode hslash h ih =>
    rw [walk_name hc hslash, hnode]
    exact ih
  | link hc hnode hlast =>
    rw [walk_name hc hend, hnode]
    exact if_pos ⟨rfl, hlast⟩
  | follow hc hnode hslash hkept h ih =>
    rw [walk_name hc hslash, hnode]
    exact (if_neg hkept).trans ih

/-- The walk gives a destination exactly if the components lead there. -/
theorem walk_eq_ok_iff : t.walk last links place cs = .ok d ↔ Leads t last links place cs d :=
  ⟨leads_of_walk, walk_of_leads⟩

namespace Leads

/-! ## What stands at the end -/

/-- A file that a path leads to stands in the tree. -/
theorem node?_file (h : Leads t last links place cs d) {l : Location} {content : Content}
    (hd : d = .found l (.file content)) : l ≠ [] ∧ t.node? l = some (.file content) := by
  induction h with
  | here => cases hd
  | skip _ _ ih => exact ih hd
  | up _ ih => exact ih hd
  | free => cases hd
  | file _ hnode =>
    cases hd
    exact ⟨by simp, hnode⟩
  | enter _ _ _ _ ih => exact ih hd
  | link => cases hd
  | follow _ _ _ _ _ ih => exact ih hd

/-- Under a free name the tree holds nothing. -/
theorem node?_free (h : Leads t last links place cs d) {l : Location} {name : String}
    (hd : d = .free l name) : t.node? (l ++ [name]) = none := by
  induction h with
  | here => cases hd
  | skip _ _ ih => exact ih hd
  | up _ ih => exact ih hd
  | free _ hnode =>
    cases hd
    exact hnode
  | file => cases hd
  | enter _ _ _ _ ih => exact ih hd
  | link => cases hd
  | follow _ _ _ _ _ ih => exact ih hd

/-- Components lead to no lost directory. -/
theorem ne_lost (h : Leads t last links place cs d) (e : WorkingDirectory) : d ≠ .lost e := by
  induction h with
  | here => exact Destination.noConfusion
  | skip _ _ ih => exact ih
  | up _ ih => exact ih
  | free => exact Destination.noConfusion
  | file => exact Destination.noConfusion
  | enter _ _ _ _ ih => exact ih
  | link => exact Destination.noConfusion
  | follow _ _ _ _ _ ih => exact ih

/-- The location of a file that a path leads to takes a file. -/
theorem takesFile_file {l : Location} {content : Content}
    (h : Leads t last links place cs (.found l (.file content))) : t.TakesFile l := by
  obtain ⟨hl, hnode⟩ := h.node?_file rfl
  refine ⟨hl, ?_⟩
  intro n hn
  rw [hnode] at hn
  obtain rfl := Option.some.inj hn
  exact Node.isFile_file content

/-- A free name takes a file. -/
theorem takesFile_free {l : Location} {name : String}
    (h : Leads t last links place cs (.free l name)) : t.TakesFile (l ++ [name]) := by
  refine ⟨by simp, ?_⟩
  intro n hn
  rw [h.node?_free rfl] at hn
  cases hn

/-! ## Putting a file somewhere -/

/-- **A file that is put somewhere bends no path**: only what leads to its location changes. -/
theorem put (h : Leads t last links place cs d) {l : Location} (hl : t.TakesFile l)
    (content : Content) :
    Leads (t.put l (.file content)) last links place cs (d.withFile l content) := by
  induction h with
  | here => exact .here
  | skip hc _ ih => exact .skip hc ih
  | up _ ih => exact .up ih
  | free hc hnode =>
    rename_i place c
    rw [Destination.withFile]
    -- The free name may be the one at which the file is put.
    by_cases heq : place ++ [c] = l
    · rw [if_pos heq, ← heq]
      exact .file hc (by rw [heq, FileTree.node?_put t hl.1, if_pos rfl])
    · rw [if_neg heq]
      exact .free hc (by rw [FileTree.node?_put t hl.1, if_neg (Ne.symm heq), hnode])
  | file hc hnode =>
    rename_i place c old
    refine .file hc ?_
    rw [FileTree.node?_put t hl.1]
    by_cases heq : place ++ [c] = l
    · rw [if_pos heq.symm, if_pos heq]
    · rw [if_neg (Ne.symm heq), if_neg heq, hnode]
  | enter hc hnode hslash _ ih =>
    exact .enter hc (hl.node?_put hnode Node.not_isFile_directory _) hslash ih
  | link hc hnode hlast =>
    exact .link hc (hl.node?_put hnode (Node.not_isFile_link _) _) hlast
  | follow hc hnode hslash hkept _ ih =>
    exact .follow hc (hl.node?_put hnode (Node.not_isFile_link _) _) hslash hkept ih

/-- A path that leads to another content than the one that was put led there before. -/
theorem of_put {l : Location} (hl : l ≠ []) {new : Content}
    (h : Leads (t.put l (.file new)) last links place cs d) {l' : Location} {content : Content}
    (hd : d = .found l' (.file content)) (hne : content ≠ new) : Leads t last links place cs d := by
  -- Whatever is not the new file stood there before.
  have hother {l' : Location} {n : Node} (hn : (t.put l (.file new)).node? l' = some n)
      (hfile : n ≠ .file new) : t.node? l' = some n := by
    rw [FileTree.node?_put t hl] at hn
    split at hn
    · exact absurd (Option.some.inj hn).symm hfile
    · exact hn
  induction h with
  | here => cases hd
  | skip hc _ ih => exact .skip hc (ih hd)
  | up _ ih => exact .up (ih hd)
  | free => cases hd
  | file hc hnode =>
    cases hd
    exact .file hc (hother hnode fun h => hne (Node.file.inj h))
  | enter hc hnode hslash _ ih =>
    exact .enter hc (hother hnode fun h => by cases h) hslash (ih hd)
  | link => cases hd
  | follow hc hnode hslash hkept _ ih =>
    exact .follow hc (hother hnode fun h => by cases h) hslash hkept (ih hd)

/-! ## Ways to treat the last name -/

/-- What is found for writing is found when the last name is followed. -/
theorem followed (h : Leads t .written links place cs d) :
    Leads t .followed links place cs d := by
  have hslash (rest : List String) : ¬(LastName.followed = .written ∧ isSlashed rest = true) := by
    rintro ⟨h, _⟩
    cases h
  have hkept (rest : List String) : ¬(rest = [] ∧ LastName.followed = .kept) := by
    rintro ⟨_, h⟩
    cases h
  induction h with
  | here => exact .here
  | skip hc _ ih => exact .skip hc ih
  | up _ ih => exact .up ih
  | free hc hnode => exact .free hc hnode
  | file hc hnode => exact .file hc hnode
  | enter hc hnode _ _ ih => exact .enter hc hnode (hslash _) ih
  | link hc hnode hlast => cases hlast
  | follow hc hnode _ _ _ ih => exact .follow hc hnode (hslash _) (hkept _) ih

/-- With a slash at the end a path leads to a directory. -/
theorem directory_of_slash (h : Leads t last links place cs d) {ds : List String}
    (hcs : cs = ds ++ [""]) : ∃ l, d = .found l .directory := by
  induction h generalizing ds with
  -- The last component is empty, so the last step passes over it in a directory.
  | here => exact absurd hcs (by simp)
  | free hc _ => exact absurd hcs (hc.singleton_ne ds)
  | file hc _ => exact absurd hcs (hc.singleton_ne ds)
  | link hc _ _ => exact absurd hcs (hc.singleton_ne ds)
  | skip hc h ih =>
    cases ds with
    | nil =>
      obtain ⟨rfl, rfl⟩ := List.cons.inj hcs
      cases h
      exact ⟨_, rfl⟩
    | cons c ds => exact ih (List.cons.inj hcs).2
  | up h ih =>
    cases ds with
    | nil => exact absurd (List.cons.inj hcs).1 (by decide)
    | cons c ds => exact ih (List.cons.inj hcs).2
  | enter hc hnode hslash h ih =>
    cases ds with
    | nil => exact absurd (.inl (List.cons.inj hcs).1) hc.1
    | cons c ds => exact ih (List.cons.inj hcs).2
  | @follow _ _ _ target rest _ hc hnode hslash hkept h ih =>
    cases ds with
    | nil => exact absurd (.inl (List.cons.inj hcs).1) hc.1
    | cons c ds =>
      have hrest : Path.components target ++ rest = (Path.components target ++ ds) ++ [""] := by
        rw [(List.cons.inj hcs).2, List.append_assoc]
        rfl
      exact ih hrest

/-- A list that is slashed ends with the empty component. -/
theorem exists_slash {rest : List String} (h : isSlashed rest = true) :
    ∃ ds, rest = ds ++ [""] := by
  rw [isSlashed, Bool.and_eq_true, bne_iff_ne] at h
  obtain ⟨hne, hall⟩ := h
  refine ⟨rest.dropLast, ?_⟩
  have hlast : rest.getLast hne = "" := by
    simpa using List.all_eq_true.mp hall _ (List.getLast_mem hne)
  rw [← hlast, List.dropLast_concat_getLast]

/-- A file that is found when the last name is followed is found for writing. -/
theorem written (h : Leads t .followed links place cs d) {l : Location} {content : Content}
    (hd : d = .found l (.file content)) : Leads t .written links place cs d := by
  have hslash {links : Nat} {place : Location} (cs : List String) {rest : List String}
      {d : Destination} (h : Leads t .followed links place (cs ++ rest) d) (hd : d = .found l (.file content)) :
      ¬(LastName.written = .written ∧ isSlashed rest = true) := by
    rintro ⟨_, hrest⟩
    obtain ⟨ds, rfl⟩ := exists_slash hrest
    obtain ⟨m, hm⟩ := h.directory_of_slash (List.append_assoc cs ds [""]).symm
    rw [hd] at hm
    cases hm
  have hkept (rest : List String) : ¬(rest = [] ∧ LastName.written = .kept) := by
    rintro ⟨_, h⟩
    cases h
  induction h with
  | here => exact .here
  | skip hc _ ih => exact .skip hc (ih hd)
  | up _ ih => exact .up (ih hd)
  | free hc hnode => exact .free hc hnode
  | file hc hnode => exact .file hc hnode
  | enter hc hnode _ h ih => exact .enter hc hnode (hslash [] h hd) (ih hd)
  | link hc hnode hlast => cases hlast
  | follow hc hnode _ _ h ih => exact .follow hc hnode (hslash _ h hd) (hkept _) (ih hd)

/-! ## The directory of what was found -/

/-- **What stands before the last name of a path leads to a directory**, or to a link if its own last
name is kept. -/
theorem parent (h : Leads t .followed links place cs d) {ds : List String} {name : String}
    (hcs : cs = ds ++ [name]) {last : LastName} (hlast : last ≠ .written) :
    ∃ l n, Leads t last links place ds (.found l n) ∧ (last = .followed → n = .directory) := by
  have hslash (rest : List String) : ¬(last = .written ∧ isSlashed rest = true) :=
    fun h => hlast h.1
  induction h generalizing ds with
  | here => exact absurd hcs (by simp)
  | skip hc h ih =>
    cases ds with
    | nil => exact ⟨_, _, .here, fun _ => rfl⟩
    | cons c ds =>
      obtain ⟨rfl, hrest⟩ := List.cons.inj hcs
      obtain ⟨l, n, hl, hn⟩ := ih hrest
      exact ⟨l, n, .skip hc hl, hn⟩
  | up h ih =>
    cases ds with
    | nil => exact ⟨_, _, .here, fun _ => rfl⟩
    | cons c ds =>
      obtain ⟨rfl, hrest⟩ := List.cons.inj hcs
      obtain ⟨l, n, hl, hn⟩ := ih hrest
      exact ⟨l, n, .up hl, hn⟩
  | enter hc hnode _ h ih =>
    cases ds with
    | nil => exact ⟨_, _, .here, fun _ => rfl⟩
    | cons c ds =>
      obtain ⟨rfl, hrest⟩ := List.cons.inj hcs
      obtain ⟨l, n, hl, hn⟩ := ih hrest
      exact ⟨l, n, .enter hc hnode (hslash _) hl, hn⟩
  | @follow _ _ _ target rest _ hc hnode _ _ h ih =>
    cases ds with
    | nil => exact ⟨_, _, .here, fun _ => rfl⟩
    | cons c ds =>
      obtain ⟨rfl, hrest⟩ := List.cons.inj hcs
      -- A link at the end may be kept; one on the way is followed.
      by_cases hkept : ds = [] ∧ last = .kept
      · obtain ⟨rfl, rfl⟩ := hkept
        exact ⟨_, _, .link hc hnode rfl, fun h => (by cases h)⟩
      have htarget : Path.components target ++ rest = (Path.components target ++ ds) ++ [name] := by
        rw [hrest, List.append_assoc]
        rfl
      obtain ⟨l, n, hl, hn⟩ := ih htarget
      exact ⟨l, n, .follow hc hnode (hslash _) hkept hl, hn⟩
  | _ =>
    cases ds with
    | nil => exact ⟨_, _, .here, fun _ => rfl⟩
    | cons c ds => exact absurd (List.cons.inj hcs).2 (by simp)

end Leads

end FileTree

end CommandShell
