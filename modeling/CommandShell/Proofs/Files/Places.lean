import CommandShell.Proofs.Files.Directories

/-! # Where a path writes

A path that can be written leads, from a working directory, to one place in the tree: to a file, or to a
free name (`FileTree.filePlace?`). What is written goes to that place (`write_of_filePlace?`), and putting
a file anywhere changes the place of no path (`filePlace?_put`). An absolute path leads to the same place
from every working directory (`filePlace?_cwd`). -/

namespace CommandShell

/-- The place of the file that is written at a destination. -/
def Destination.filePlace? : Destination → Option Location
  | .found place (.file _) => some place
  | .free directory name => some (directory ++ [name])
  | _ => none

/-- Putting a file somewhere does not move the place that a path leads to. -/
@[simp] theorem Destination.filePlace?_withFile (d : Destination) (l : Location) (content : Content) :
    (d.withFile l content).filePlace? = d.filePlace? := by
  cases d with
  | found place node => cases node <;> rfl
  | lost d => rfl
  | free directory name =>
    by_cases h : directory ++ [name] = l
    · simp [withFile, filePlace?, h]
    · simp [withFile, filePlace?, h]

namespace FileTree

/-- The place to which what is written under a path goes. -/
def filePlace? (t : FileTree) (cwd : WorkingDirectory) (path : String) : Option Location :=
  match t.resolve cwd .written path with
  | .ok d => d.filePlace?
  | .error _ => none

/-- What the file at a place holds. -/
def content? (t : FileTree) (place : Location) : Option Content :=
  match t.node? place with
  | some (.file content) => some content
  | _ => none

/-- The file at a place holds these bytes. If nothing stands there, they are none. -/
def HoldsAt (t : FileTree) (place : Location) (data : List UInt8) : Prop :=
  t.node? place = some (.file (.bytes data)) ∨ t.node? place = none ∧ data = []

variable {t : FileTree} {cwd cwd' : WorkingDirectory} {path : String} {place l : Location}
  {data : List UInt8}

/-- An absolute path leads to the same place from everywhere. -/
theorem filePlace?_cwd (hroot : Path.rootOf path ≠ "") (t : FileTree) (cwd cwd' : WorkingDirectory) :
    t.filePlace? cwd path = t.filePlace? cwd' path := by
  unfold filePlace?
  rw [resolve_cwd hroot t cwd cwd']

/-- A path that leads to a place for a file resolves to a file there or to its free name. -/
theorem exists_resolve_of_filePlace? (h : t.filePlace? cwd path = some place) :
    ∃ d, t.resolve cwd .written path = .ok d ∧ d.filePlace? = some place := by
  unfold filePlace? at h
  split at h
  · exact ⟨_, ‹_›, h⟩
  · cases h

/-- A path with a place starts somewhere, and its components lead on from there. -/
theorem exists_leads_of_filePlace? (h : t.filePlace? cwd path = some place) :
    ∃ start cs d, Leads t .written maxLinks start cs d ∧ d.filePlace? = some place ∧
      ∀ {t' : FileTree} {d' : Destination},
        Leads t' .written maxLinks start cs d' → t'.resolve cwd .written path = .ok d' := by
  obtain ⟨d, hresolve, hd⟩ := exists_resolve_of_filePlace? h
  obtain ⟨e, rfl⟩ | ⟨start, cs, hleads, hback⟩ := resolve_start hresolve
  · cases hd
  · exact ⟨start, cs, d, hleads, hd, hback⟩

/-- What stands at the place of a path is where the path leads: a file, or nothing. -/
theorem filePlace?_cases (h : t.filePlace? cwd path = some place) :
    (∃ content, t.resolve cwd .written path = .ok (.found place (.file content)) ∧
        t.node? place = some (.file content) ∧ place ≠ []) ∨
      ∃ directory name, t.resolve cwd .written path = .ok (.free directory name) ∧
        place = directory ++ [name] ∧ t.node? place = none := by
  obtain ⟨start, cs, d, hleads, hd, hback⟩ := exists_leads_of_filePlace? h
  cases d with
  | lost d => cases hd
  | free directory name =>
    cases hd
    exact .inr ⟨directory, name, hback hleads, rfl, hleads.node?_free rfl⟩
  | found place' node =>
    cases node with
    | directory => cases hd
    | link target => cases hd
    | file content =>
      cases hd
      obtain ⟨hplace, hnode⟩ := hleads.node?_file rfl
      exact .inl ⟨content, hback hleads, hnode, hplace⟩

/-- A place that a path leads to takes a file. -/
theorem takesFile_of_filePlace? (h : t.filePlace? cwd path = some place) : t.TakesFile place := by
  obtain ⟨content, -, hnode, hplace⟩ | ⟨directory, name, -, rfl, hnode⟩ := filePlace?_cases h
  · exact ⟨hplace, by simp [hnode]⟩
  · exact ⟨by simp, by simp [hnode]⟩

/-- **What is written under a path goes to its place.** -/
theorem write_of_filePlace? (h : t.filePlace? cwd path = some place)
    (update : Option Content → Content) :
    t.write cwd path update = .ok (t.put place (.file (update (t.content? place)))) := by
  unfold write content?
  obtain ⟨content, hresolve, hnode, -⟩ | ⟨directory, name, hresolve, rfl, hnode⟩ :=
    filePlace?_cases h
  · simp [hresolve, hnode]
  · simp [hresolve, hnode]

/-- Nothing is written under a path without a place. -/
theorem write_of_filePlace?_eq_none (h : t.filePlace? cwd path = none)
    (update : Option Content → Content) : ∃ e, t.write cwd path update = .error e := by
  unfold filePlace? at h
  unfold write
  split
  · exact ⟨_, rfl⟩
  · rename_i hresolve
    rw [hresolve] at h
    cases h
  · rename_i hresolve
    rw [hresolve] at h
    cases h
  · exact ⟨_, rfl⟩

/-- **No path is bent by a file** that is put somewhere. -/
theorem filePlace?_put (h : t.filePlace? cwd path = some place) (hl : t.TakesFile l)
    (content : Content) : (t.put l (.file content)).filePlace? cwd path = some place := by
  obtain ⟨start, cs, d, hleads, hd, hback⟩ := exists_leads_of_filePlace? h
  unfold filePlace?
  rw [hback (hleads.put hl content)]
  simpa using hd

/-- Where a path is followed as before, the same stands at its place. -/
theorem node?_of_resolve {t' : FileTree} (h : t.filePlace? cwd path = some place)
    (hsame : t'.resolve cwd .written path = t.resolve cwd .written path) :
    t'.filePlace? cwd path = some place ∧ t'.node? place = t.node? place := by
  have h' : t'.filePlace? cwd path = some place := by
    unfold filePlace? at h ⊢
    rwa [hsame]
  refine ⟨h', ?_⟩
  obtain ⟨content, hresolve, hnode, -⟩ | ⟨_, _, hresolve, -, hnode⟩ := filePlace?_cases h
  · obtain ⟨content', hresolve', hnode', -⟩ | ⟨_, _, hresolve', -, -⟩ := filePlace?_cases h'
    · rw [hsame, hresolve] at hresolve'
      cases hresolve'
      rw [hnode, hnode']
    · rw [hsame, hresolve] at hresolve'
      cases hresolve'
  · obtain ⟨content', hresolve', -, -⟩ | ⟨_, _, -, -, hnode'⟩ := filePlace?_cases h'
    · rw [hsame, hresolve] at hresolve'
      cases hresolve'
    · rw [hnode, hnode']

/-! ## Bytes at a place -/

/-- A place holds what was put there. -/
theorem HoldsAt.put_self (hplace : place ≠ []) (t : FileTree) (data : List UInt8) :
    (t.put place (.file (.bytes data))).HoldsAt place data :=
  .inl ((node?_put t hplace _ place).trans (if_pos rfl))

/-- A place holds what it held when a node is put elsewhere. -/
theorem HoldsAt.put_of_ne (h : t.HoldsAt place data) (hl : l ≠ []) (hne : l ≠ place) (node : Node) :
    (t.put l node).HoldsAt place data := by
  unfold HoldsAt
  rw [node?_put t hl, if_neg hne]
  exact h

/-- The bytes that the content of a place has. -/
theorem HoldsAt.contentBytes (h : t.HoldsAt place data) :
    ((t.content? place).map Files.contentBytes).getD [] = data := by
  unfold content?
  obtain hnode | ⟨hnode, rfl⟩ := h
  · rw [hnode]
    rfl
  · rw [hnode]
    rfl

end FileTree

end CommandShell
