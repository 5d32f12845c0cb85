import CommandShell.Proofs.Files.Actions
import CommandShell.Proofs.Shell.Carries

/-! # Files and the rest of the world

What an action on files gives, and what becomes of the files, depends on nothing but the files and the
working directory: it carries over to any world that has the same ones (`World.SameFiles`). -/

namespace CommandShell

/-- Two worlds have the same files, working directory and home. -/
structure World.SameFiles (w u : World) : Prop where
  /-- The files are the same. -/
  files : u.files = w.files
  /-- The working directory is the same. -/
  cwd : u.cwd = w.cwd
  /-- The home directory is the same. -/
  home : u.home = w.home

namespace Files

open World Shell

/-- A query does the same in worlds with the same files. -/
theorem carries_query {α : Type} (path : Path)
    (q : FileTree → WorkingDirectory → String → Except Errno α) : Carries SameFiles (query path q) := by
  intro w u h
  cases hname : fileName path.text with
  | error f =>
    have hfails (v : World) : (query path q).run v = .error f v := by
      unfold query
      rw [hname]
      exact run_bind_error (run_ofExcept_error id f v) _
    rw [hfails, hfails]
    exact .error h
  | ok name =>
    cases hanswer : q w.files w.cwd name with
    | error e =>
      have hanswer' : q u.files u.cwd name = .error e := by rw [h.files, h.cwd, hanswer]
      rw [run_query_error hname hanswer, run_query_error hname hanswer']
      exact .error h
    | ok a =>
      have hanswer' : q u.files u.cwd name = .ok a := by rw [h.files, h.cwd, hanswer]
      rw [run_query_ok hname hanswer, run_query_ok hname hanswer']
      exact .ok h

/-- A question does the same in worlds with the same files. -/
theorem carries_ask (path : Path) (q : FileTree → WorkingDirectory → String → Except Errno Bool) :
    Carries SameFiles (ask path q) := by
  intro w u h
  unfold ask
  split
  · exact .ok h
  · rename_i name _
    rw [run_bind_ok (EStateM.run_get w), run_bind_ok (EStateM.run_get u), h.files, h.cwd]
    split
    · exact .ok h
    · split
      · exact .ok h
      · exact .error h

/-- A change does the same in worlds with the same files, and leaves the same files. -/
theorem carries_change (path : Path)
    (q : FileTree → WorkingDirectory → String → Except Errno FileTree) :
    Carries SameFiles (change path q) :=
  carries_bind (carries_query path q) fun _ _ _ h => .ok ⟨rfl, h.cwd, h.home⟩

/-- Making a directory does the same in worlds with the same files. -/
theorem carries_makeDirectory (path : Path) : Carries SameFiles (makeDirectory path) := by
  refine carries_catch (carries_change path _) fun f => ?_
  split
  · exact carries_throw _
  · refine carries_bind (carries_ask path _) fun there => ?_
    split
    · exact carries_pure _
    · exact carries_throw _
  · exact carries_throw _

/-- Directories are made alike. -/
theorem carries_makeDirectories (path : Path) : Carries SameFiles (makeDirectories path) := by
  unfold makeDirectories
  refine carries_catch (carries_makeDirectory path) fun f => ?_
  split
  · split
    · exact carries_throw _
    · rename_i hparts
      -- A directory above has a shorter path.
      have hshorter : path.parent.parts.length < path.parts.length := by
        have := List.length_pos_iff.mpr hparts
        simp only [Path.parent, List.length_dropLast]
        omega
      exact carries_bind (carries_makeDirectories path.parent) fun _ => carries_makeDirectory path
  · exact carries_throw _
termination_by path.parts.length

end Files

end CommandShell
