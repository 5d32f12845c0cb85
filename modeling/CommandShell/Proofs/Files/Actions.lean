import CommandShell.Files
import CommandShell.Proofs.Files.ReadWrite
import CommandShell.Proofs.Shell.Within

/-! # What actions on files do

Each action on files is described by what the file tree answers. Asking changes nothing, and a change
touches nothing of the world but its files (`SameButFiles`). Where a file reads, the directories above
it can be made again, which changes nothing (`run_makeDirectories_of_read`). -/

namespace CommandShell

/-- Two worlds differ at most in their files. -/
def World.SameButFiles (w w' : World) : Prop := ∃ files, w' = { w with files }

/-- Actions that change nothing but the files may be put together. -/
theorem World.frame_sameButFiles : Shell.Frame World.SameButFiles where
  refl w := ⟨w.files, rfl⟩
  trans := by
    rintro u v w ⟨files, rfl⟩ ⟨files', rfl⟩
    exact ⟨files', rfl⟩

/-- A change of the files leaves the home directory. -/
theorem World.SameButFiles.home {w w' : World} (h : w.SameButFiles w') : w'.home = w.home := by
  obtain ⟨files, rfl⟩ := h
  rfl

namespace Files

variable {α : Type} {w : World} {path : Path} {name : String}

/-! ## Names of paths -/

/-- A text names a file if it can be encoded and has no null character, and then it is the name itself. -/
theorem fileName_eq_ok_iff {t : RawText} {name : String} :
    fileName t = .ok name ↔
      t.flaw? = none ∧ t.toString = name ∧ Char.ofNat 0 ∉ t.toString.toList := by
  unfold fileName
  cases hflaw : t.flaw? with
  | some flaw =>
    refine iff_of_false (fun h => ?_) fun h => ?_
    · cases h
    · cases h.1
  | none =>
    simp only [List.contains_iff_mem]
    -- A name without a flaw is refused only for a null character in it.
    by_cases hnul : Char.ofNat 0 ∈ t.toString.toList
    · rw [if_pos hnul]
      refine iff_of_false (fun h => ?_) fun h => h.2.2 hnul
      cases h
    · rw [if_neg hnul]
      constructor
      · intro h
        cases h
        exact ⟨trivial, rfl, hnul⟩
      · rintro ⟨_, rfl, _⟩
        rfl

/-- A text without a flaw has none in its beginning. -/
theorem find?_append_eq_none {n : Nat} {ps qs : List CodePoint}
    (h : Flaw.find? n (ps ++ qs) = none) : Flaw.find? n ps = none := by
  induction ps generalizing n with
  | nil => rfl
  | cons p ps ih =>
    rw [List.cons_append, Flaw.find?] at h
    rw [Flaw.find?]
    split at h
    · cases h
    · rename_i hp
      rw [if_neg hp]
      exact ih h

/-- The start of a text that names a file names a file. -/
theorem fileName_of_append {t u : RawText} (h : fileName (t ++ u) = .ok name) :
    ∃ start, fileName t = .ok start ∧ name = start ++ u.toString := by
  obtain ⟨hflaw, htext, hnul⟩ := fileName_eq_ok_iff.mp h
  rw [RawText.toString_append] at htext hnul
  refine ⟨t.toString, fileName_eq_ok_iff.mpr ⟨?_, rfl, ?_⟩, htext.symm⟩
  · exact find?_append_eq_none hflaw
  · rw [String.toList_append, List.mem_append, not_or] at hnul
    exact hnul.1

/-! ## Asking -/

/-- A query that the files answer gives this answer and changes nothing. -/
theorem run_query_ok (hname : fileName path.text = .ok name)
    {q : FileTree → WorkingDirectory → String → Except Errno α} {a : α}
    (h : q w.files w.cwd name = .ok a) : (query path q).run w = .ok a w := by
  unfold query
  rw [hname, Shell.run_bind_ok (Shell.run_ofExcept_ok id name w),
    Shell.run_bind_ok (EStateM.run_get w), h]
  rfl

/-- A query that the files refuse ends with their error, which names the path. -/
theorem run_query_error (hname : fileName path.text = .ok name)
    {q : FileTree → WorkingDirectory → String → Except Errno α} {e : Errno}
    (h : q w.files w.cwd name = .error e) :
    (query path q).run w = .error (.system e [path.text]) w := by
  unfold query
  rw [hname, Shell.run_bind_ok (Shell.run_ofExcept_ok id name w),
    Shell.run_bind_ok (EStateM.run_get w), h]
  rfl

/-- Asking changes nothing, and gives what the file tree answers. -/
theorem query_cases (path : Path) (q : FileTree → WorkingDirectory → String → Except Errno α)
    (w : World) :
    (∃ f, (query path q).run w = .error f w) ∨
      ∃ name a, fileName path.text = .ok name ∧ q w.files w.cwd name = .ok a ∧
        (query path q).run w = .ok a w := by
  cases hname : fileName path.text with
  | error f =>
    refine .inl ⟨f, ?_⟩
    unfold query
    rw [hname]
    exact Shell.run_bind_error (Shell.run_ofExcept_error id f w) _
  | ok name =>
    cases h : q w.files w.cwd name with
    | error e => exact .inl ⟨_, run_query_error hname h⟩
    | ok a => exact .inr ⟨name, a, rfl, h, run_query_ok hname h⟩

/-- What is answered about a path is what the file tree answers. -/
theorem query_eq_ok {q : FileTree → WorkingDirectory → String → Except Errno α} {a : α} {w' : World}
    (h : (query path q).run w = .ok a w') :
    w' = w ∧ ∃ name, fileName path.text = .ok name ∧ q w.files w.cwd name = .ok a := by
  obtain ⟨f, hf⟩ | ⟨name, a', hname, hq, hrun⟩ := query_cases path q w
  · rw [hf] at h
    cases h
  · rw [hrun] at h
    cases h
    exact ⟨rfl, name, hname, hq⟩

/-- A change that the files accept replaces them by what it makes of them. -/
theorem run_change_ok (hname : fileName path.text = .ok name)
    {q : FileTree → WorkingDirectory → String → Except Errno FileTree} {files : FileTree}
    (h : q w.files w.cwd name = .ok files) :
    (change path q).run w = .ok () { w with files } := by
  unfold change
  rw [Shell.run_bind_ok (run_query_ok hname h)]
  rfl

/-- A change that the files refuse ends with their error and changes nothing. -/
theorem run_change_error (hname : fileName path.text = .ok name)
    {q : FileTree → WorkingDirectory → String → Except Errno FileTree} {e : Errno}
    (h : q w.files w.cwd name = .error e) :
    (change path q).run w = .error (.system e [path.text]) w := by
  unfold change
  exact Shell.run_bind_error (run_query_error hname h) _

/-- A change succeeds and changes the files, or fails and changes nothing. -/
theorem change_cases (path : Path)
    (q : FileTree → WorkingDirectory → String → Except Errno FileTree) (w : World) :
    (∃ f, (change path q).run w = .error f w) ∨
      ∃ name files, fileName path.text = .ok name ∧ q w.files w.cwd name = .ok files ∧
        (change path q).run w = .ok () { w with files } := by
  obtain ⟨f, hf⟩ | ⟨name, files, hname, h, _⟩ := query_cases path q w
  · refine .inl ⟨f, ?_⟩
    unfold change
    exact Shell.run_bind_error hf _
  · exact .inr ⟨name, files, hname, h, run_change_ok hname h⟩

/-- A question that the files answer gives this answer and changes nothing. -/
theorem run_ask_ok (hname : fileName path.text = .ok name)
    {q : FileTree → WorkingDirectory → String → Except Errno Bool} {answer : Bool}
    (h : q w.files w.cwd name = .ok answer) : (ask path q).run w = .ok answer w := by
  unfold ask
  rw [hname, Shell.run_bind_ok (EStateM.run_get w), h]
  rfl

/-- An error that says that nothing is there is the answer no. -/
theorem run_ask_absent (hname : fileName path.text = .ok name)
    {q : FileTree → WorkingDirectory → String → Except Errno Bool} {e : Errno}
    (h : q w.files w.cwd name = .error e) (he : meansAbsent e = true) :
    (ask path q).run w = .ok false w := by
  unfold ask
  rw [hname, Shell.run_bind_ok (EStateM.run_get w), h]
  simp only [he, if_true]
  rfl

/-- Any other error is no answer, and ends the question with a fault. -/
theorem run_ask_fault (hname : fileName path.text = .ok name)
    {q : FileTree → WorkingDirectory → String → Except Errno Bool} {e : Errno}
    (h : q w.files w.cwd name = .error e) (he : meansAbsent e = false) :
    (ask path q).run w = .error (.system e [path.text]) w := by
  unfold ask
  rw [hname, Shell.run_bind_ok (EStateM.run_get w), h]
  simp only [he, Bool.false_eq_true, if_false]
  rfl

/-! ## Reading and writing -/

/-- Reading gives the bytes of the file that the path leads to. -/
theorem run_readBytes {r : Location × Content} (hname : fileName path.text = .ok name)
    (h : w.files.read w.cwd name = .ok r) :
    (readBytes path).run w = .ok (contentBytes r.2) w := by
  unfold readBytes locateContent
  rw [Shell.run_bind_ok (run_query_ok hname h)]
  rfl

/-- Reading where no file can be read ends with the error of the files. -/
theorem run_readBytes_error {e : Errno} (hname : fileName path.text = .ok name)
    (h : w.files.read w.cwd name = .error e) :
    (readBytes path).run w = .error (.system e [path.text]) w := by
  unfold readBytes locateContent
  exact Shell.run_bind_error (run_query_error hname h) _

/-- A file that reads is there. -/
theorem run_isThere_of_read {r : Location × Content} (hname : fileName path.text = .ok name)
    (h : w.files.read w.cwd name = .ok r) : (isThere path).run w = .ok true w := by
  obtain ⟨place, content⟩ := r
  have hfind : w.files.find w.cwd name = .ok (.file content) := by
    rw [FileTree.find, FileTree.read_eq_ok_iff.mp h]
  exact run_ask_ok hname (by rw [hfind]; rfl)

/-- A path at which nothing is found to read leads nowhere. -/
theorem run_isThere_of_noEntry (hname : fileName path.text = .ok name)
    (h : w.files.read w.cwd name = .error .noEntry) : (isThere path).run w = .ok false w := by
  have hfind : w.files.find w.cwd name = .error .noEntry := by
    unfold FileTree.read at h
    unfold FileTree.find
    split at h
    · rename_i hresolve
      cases h
      rw [hresolve]
    · cases h
    · rename_i hresolve
      rw [hresolve]
    · cases h
  exact run_ask_absent hname (by rw [hfind]; rfl) rfl

/-! ## Directories -/

/-- Making a directory that stands there already changes nothing. -/
theorem run_makeDirectory_of_occupied (hname : fileName path.text = .ok name)
    (hmake : w.files.makeDirectory w.cwd name = .error .occupied)
    (hfind : w.files.find w.cwd name = .ok .directory) :
    (makeDirectory path).run w = .ok () w := by
  have hthere : (isDirectory path).run w = .ok true w := run_ask_ok hname (by rw [hfind]; rfl)
  unfold makeDirectory
  rw [Shell.run_catch_error (run_change_error hname hmake)]
  show (isDirectory path >>= _).run w = _
  rw [Shell.run_bind_ok hthere]
  rfl

/-- Where a file reads, the directories above it can be made again, and nothing changes. -/
theorem run_makeDirectories_of_read {child : Path} (htext : child.text = path.text ++ "/" ++ name)
    (hname : FileTree.IsName name) (hslash : '/' ∉ name.toList) {file : String}
    (hfile : fileName child.text = .ok file) (hempty : path.text.toString ≠ "")
    {r : Location × Content} (h : w.files.read w.cwd file = .ok r) :
    (makeDirectories path).run w = .ok () w := by
  rw [htext] at hfile
  obtain ⟨start, hstart, hfile⟩ := fileName_of_append hfile
  obtain ⟨directory, hdirectory, hstart⟩ := fileName_of_append hstart
  rw [RawText.toString_ofString] at hfile hstart
  subst hfile hstart
  have hne : directory ≠ "" := by
    rw [← (fileName_eq_ok_iff.mp hdirectory).2.1]
    exact hempty
  obtain ⟨hmake, hfind⟩ := FileTree.directory_of_read hname hslash hne h .directory
  have hrun := run_makeDirectory_of_occupied hdirectory hmake hfind
  unfold makeDirectories
  exact Shell.run_catch_ok hrun _

/-- **Replacing a leading `~`** changes nothing, and depends on the users alone. -/
theorem expandHome_cases (path : Path) (w : World) :
    (∃ f, ∀ u : World, u.home = w.home → u.accounts = w.accounts →
      (expandHome path).run u = .error f u) ∨
      ∃ p, ∀ u : World, u.home = w.home → u.accounts = w.accounts → (expandHome path).run u = .ok p u := by
  unfold expandHome
  cases path.user? with
  | none => exact .inr ⟨path, fun _ _ _ => rfl⟩
  | some user =>
    simp only [Shell.run_bind_ok (EStateM.run_get _)]
    cases hname : fileName user.1 with
    | error f =>
      exact .inl ⟨f, fun u _ _ => Shell.run_bind_error (Shell.run_ofExcept_error id f u) _⟩
    | ok name =>
      simp only [Shell.run_bind_ok (Shell.run_ofExcept_ok id name _)]
      -- Without a user the home is that of the world.
      by_cases hempty : name = ""
      · simp only [if_pos hempty]
        refine .inr ⟨(Path.ofString w.home).join ⟨"", user.2⟩, fun u hhome _ => ?_⟩
        rw [hhome]
        rfl
      · simp only [if_neg hempty]
        cases hlookup : w.accounts.lookup name with
        | none =>
          refine .inl ⟨.noHome, fun u _ haccounts => ?_⟩
          rw [haccounts, hlookup]
          rfl
        | some home =>
          refine .inr ⟨(Path.ofString home).join ⟨"", user.2⟩, fun u _ haccounts => ?_⟩
          rw [haccounts, hlookup]
          rfl

/-! ## What stays -/

section

variable {R : World → World → Prop} (hR : Shell.Frame R)

include hR

/-- A query stays within every frame. -/
theorem within_query (path : Path) (q : FileTree → WorkingDirectory → String → Except Errno α) :
    Shell.Within R (query path q) := by
  refine hR.within_bind (hR.within_ofExcept _ _) ?_
  intro _
  exact hR.within_bind hR.within_get fun _ => hR.within_ofExcept _ _

/-- A question stays within every frame. -/
theorem within_ask (path : Path) (q : FileTree → WorkingDirectory → String → Except Errno Bool) :
    Shell.Within R (ask path q) := by
  unfold ask
  split
  · exact hR.within_pure false
  · refine hR.within_bind hR.within_get ?_
    intro w
    split
    · exact hR.within_pure _
    · split
      · exact hR.within_pure _
      · exact hR.within_throw _

/-- Making a directory stays within whatever making a new one does. -/
theorem within_makeDirectory (h : ∀ path, Shell.Within R (change path FileTree.makeDirectory))
    (path : Path) : Shell.Within R (makeDirectory path) := by
  refine hR.within_catch (h path) ?_
  intro f
  split
  · exact hR.within_throw _
  · refine hR.within_bind (within_ask hR path _) ?_
    intro there
    split
    · exact hR.within_pure _
    · exact hR.within_throw _
  · exact hR.within_throw _

/-- **Making directories** stays within whatever making a new one does. -/
theorem within_makeDirectories (h : ∀ path, Shell.Within R (change path FileTree.makeDirectory))
    (path : Path) : Shell.Within R (makeDirectories path) := by
  unfold makeDirectories
  refine hR.within_catch (within_makeDirectory hR h path) ?_
  intro f
  split
  · split
    · exact hR.within_throw _
    · rename_i hparts
      -- A directory above has a shorter path.
      have hshorter : path.parent.parts.length < path.parts.length := by
        have := List.length_pos_iff.mpr hparts
        simp only [Path.parent, List.length_dropLast]
        omega
      exact hR.within_bind (within_makeDirectories h path.parent) fun _ =>
        within_makeDirectory hR h path
  · exact hR.within_throw _
termination_by path.parts.length

end

/-- A change touches nothing but the files. -/
theorem sameButFiles_change (path : Path)
    (q : FileTree → WorkingDirectory → String → Except Errno FileTree) :
    Shell.Within World.SameButFiles (change path q) := by
  intro w
  obtain ⟨f, hf⟩ | ⟨name, files, _, _, hrun⟩ := change_cases path q w
  · rw [World.after_of_error hf]
    exact World.frame_sameButFiles.refl w
  · rw [World.after_of_ok hrun]
    exact ⟨files, rfl⟩

/-- Making directories touches nothing but the files. -/
theorem sameButFiles_makeDirectories (path : Path) :
    Shell.Within World.SameButFiles (makeDirectories path) :=
  within_makeDirectories World.frame_sameButFiles (fun path => sameButFiles_change path _) path

end Files

end CommandShell
