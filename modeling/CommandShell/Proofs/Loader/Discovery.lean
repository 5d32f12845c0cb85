import CommandShell.Proofs.Loader.Search
import CommandShell.Proofs.Session.Ready
import CommandShell.Proofs.Shell.Effects

/-! # The modules of a world

What the search for modules gives is a function of the world (`World.modules`), made of what paths lead to
(`World.nodeAt`) and of what directories list. The search does nothing but report what it passes over,
and these reports are none that loading gives (`Loader.steadily_index`). So searching again, at any time
between loads, gives the same. -/

namespace CommandShell

open Shell

/-! ## What loading tells -/

/-- How the report of a failed load starts. -/
def failedLoad : String := "Failed to load command '"

/-- Whether an event is the warning about a failed load. -/
def Event.isFailedLoad : Event → Bool
  | .log .warning .loader message => Text.startsWith message failedLoad
  | _ => false

/-- Whether an event is told by loading: it is the warning about a failed load, or no report at all. -/
def Event.isLoading (e : Event) : Bool := e.isFailedLoad || !e.isReport

/-- Two traces tell the same about loading. -/
def SameLoading (t u : List Event) : Prop := t.filter Event.isLoading = u.filter Event.isLoading

/-- Traces that tell the same about loading still do when both go on with the same events. -/
theorem grows_sameLoading : Grows SameLoading := fun t t' es h => by
  rw [SameLoading, List.filter_append, List.filter_append, h]

namespace World

/-- Two worlds are the same but for reports, and tell the same about loading. -/
abbrev LoadsAlike : World → World → Prop := Alike SameLoading Eq

/-- A world loads as itself. -/
theorem LoadsAlike.refl (w : World) : w.LoadsAlike w := ⟨rfl, rfl, rfl⟩

/-- What a record brings is itself and perhaps a line on the error output. -/
theorem eq_of_mem_reports {w : World} {level : Level} {source : LogSource} {message : String} {e : Event}
    (h : e ∈ w.reports level source message) :
    e = .log level source message ∨ ∃ text, e = .err text := by
  rcases List.mem_cons.mp h with rfl | h
  · exact .inl rfl
  · right
    cases hs : w.logSink with
    | kept =>
      rw [hs] at h
      exact absurd h List.not_mem_nil
    | bare =>
      simp only [hs] at h
      split at h
      · exact ⟨_, List.mem_singleton.mp h⟩
      · exact absurd h List.not_mem_nil
    | stamped least =>
      simp only [hs] at h
      split at h
      · exact ⟨_, List.mem_singleton.mp h⟩
      · exact absurd h List.not_mem_nil

/-- A record that is not about a failed load tells nothing about loading. -/
theorem LoadsAlike.log {level : Level} {source : LogSource} {message : String}
    (h : (Event.log level source message).isFailedLoad = false) {w u : World} (hu : w.LoadsAlike u) :
    w.LoadsAlike (u.emitted (u.reports level source message)) := by
  have hnothing : (u.reports level source message).filter Event.isLoading = [] := by
    refine List.filter_eq_nil_iff.mpr fun e he => ?_
    obtain rfl | ⟨text, rfl⟩ := eq_of_mem_reports he
    · rw [Event.isLoading, h]
      exact Bool.false_ne_true
    · exact Bool.false_ne_true
  refine ⟨?_, ?_, hu.names⟩
  · rw [hu.same]
    rfl
  · rw [SameLoading, trace_emitted, List.filter_append, hnothing, List.append_nil]
    exact hu.traces

end World

/-- A record that is not about a failed load may stand between two loads. -/
theorem steadily_log {level : Level} {source : LogSource} {message : String}
    (h : (Event.log level source message).isFailedLoad = false) (w : World) :
    Steadily w.LoadsAlike (.ok ()) (log level source message) :=
  fun u hu => steadily_of_ok (run_log level source message u) (hu.log h)

/-! ## What paths lead to -/

namespace World

variable (w : World)

/-- The node that a path leads to, if there is one. Errors other than absence are faults. -/
def nodeAt (path : Path) : Except Fault (Option Node) :=
  match Files.fileName path.text with
  | .error _ => .ok none
  | .ok name =>
    match w.files.find w.cwd name with
    | .ok node => .ok (some node)
    | .error e => if Files.meansAbsent e then .ok none else .error (.system e [path.text])

/-- Whether a path leads to a node of some kind. -/
def holds (kind : Node → Bool) (path : Path) : Except Fault Bool :=
  (w.nodeAt path).map (·.any kind)

variable {w} {path : Path}

/-- A node is looked up if the path names a file and leads to the node. -/
theorem nodeAt_eq_some_iff {node : Node} : w.nodeAt path = .ok (some node) ↔
    ∃ name, Files.fileName path.text = .ok name ∧ w.files.find w.cwd name = .ok node := by
  unfold nodeAt
  cases hname : Files.fileName path.text with
  | error f => simp
  | ok name =>
    cases hfind : w.files.find w.cwd name with
    | ok node' => simp [hfind]
    | error e => by_cases habsent : Files.meansAbsent e = true <;> simp [hfind, habsent]

/-- A path leads to a node of some kind if a node is looked up and is of this kind. -/
theorem holds_eq_true_iff {kind : Node → Bool} :
    w.holds kind path = .ok true ↔ ∃ node, w.nodeAt path = .ok (some node) ∧ kind node = true := by
  unfold holds
  cases w.nodeAt path with
  | error f => simp [Except.map]
  | ok node? => cases node? <;> simp [Except.map]

end World

variable {w u : World}

/-- A question about the kind of a node ends as the look-up does, and changes nothing that loading knows.
-/
theorem steadily_ask_find (kind : Node → Bool) (path : Path) :
    Steadily w.LoadsAlike (w.holds kind path)
      (Files.ask path fun t cwd p => (t.find cwd p).map kind) := by
  intro u hu
  have hfiles : u.files = w.files := by rw [hu.same]; rfl
  have hcwd : u.cwd = w.cwd := by rw [hu.same]; rfl
  unfold World.holds World.nodeAt Files.ask
  cases hname : Files.fileName path.text with
  | error f => exact ⟨rfl, hu⟩
  | ok name =>
    simp only
    -- Both worlds have the same tree and the same working directory.
    unfold World.outcome World.after
    rw [run_bind_ok (EStateM.run_get u), hfiles, hcwd]
    cases w.files.find w.cwd name with
    | ok node => exact ⟨rfl, hu⟩
    | error e =>
      by_cases habsent : Files.meansAbsent e = true
      · simp only [Except.map, if_pos habsent]
        exact ⟨rfl, hu⟩
      · simp only [Except.map, if_neg habsent]
        exact ⟨rfl, hu⟩

/-- Whether something is there is told from the look-up alone. -/
theorem steadily_isThere (path : Path) :
    Steadily w.LoadsAlike (w.holds (fun _ => true) path) (Files.isThere path) :=
  steadily_ask_find _ path

/-- Whether a directory is there is told from the look-up alone. -/
theorem steadily_isDirectory (path : Path) :
    Steadily w.LoadsAlike (w.holds Node.isDirectory path) (Files.isDirectory path) :=
  steadily_ask_find _ path

/-! ## What directories list -/

/-- The path of an entry of a directory. -/
def Path.entry (directory : Path) (name : String) : Path :=
  ⟨directory.root, directory.parts ++ [RawText.ofString name]⟩

/-- The path of an entry ends with its name. -/
theorem Path.name_entry (directory : Path) (name : String) : (directory.entry name).name = name := by
  simp [Path.name, Path.names, Path.entry, RawText.toString_ofString]

namespace World

variable (w : World)

/-- The names in the directory that a path leads to, ascending. -/
def listed (directory : Path) : List String :=
  match Files.fileName directory.text with
  | .error _ => []
  | .ok name =>
    match w.files.listing w.cwd name with
    | .ok names => names
    | .error _ => []

/-- The initial file of the module at a path, if there is one. -/
def initialAt (path : Path) : Except Fault (Option Path) := do
  if !(← w.holds Node.isDirectory path) then pure none
  else if !isModuleName path.name then pure none
  else if ← w.holds (fun _ => true) (path.child initialFile) then
    pure (some (path.child initialFile))
  else pure none

/-- The initial files of the modules in a directory, ordered by name. -/
def modulesIn (directory : Path) : Except Fault (List Path) := do
  if ← w.holds Node.isDirectory directory then
    let found ← (w.listed directory).mapM fun name => w.initialAt (directory.entry name)
    pure (found.filterMap id)
  else pure []

/-- Files by the normal names of their modules; the first of a name counts. -/
def indexOf (files : List Path) : Table String Path :=
  files.foldl (fun t f => t.putNew (normalName f.parent.name) f) {}

/-- The modules that can be found, by normal name. -/
def modules : Except Fault (Table String Path) := do
  let files ← w.loader.directories.mapM w.modulesIn
  pure (indexOf files.flatten)

end World

/-- The initial file at a path is found from the files alone. -/
theorem steadily_initialFileAt (path : Path) :
    Steadily w.LoadsAlike (w.initialAt path) (initialFileAt path) := by
  refine (steadily_isDirectory path).bind fun isDirectory => ?_
  cases isDirectory with
  | false => exact steadily_pure none
  | true =>
    cases hname : isModuleName path.name with
    | false => exact steadily_pure none
    | true =>
      refine (steadily_isThere (path.child initialFile)).bind fun there => ?_
      cases there with
      | true => exact steadily_pure _
      | false => exact (steadily_log rfl w).bind fun _ => steadily_pure none

/-- Initial files are found from the files alone. -/
theorem steadily_initialFiles (paths : List Path) :
    Steadily w.LoadsAlike ((paths.mapM w.initialAt).map (List.filterMap id)) (initialFiles paths) := by
  induction paths with
  | nil => exact steadily_pure []
  | cons path paths ih =>
    have hboth : ((path :: paths).mapM w.initialAt).map (List.filterMap id)
        = w.initialAt path >>= fun found => (paths.mapM w.initialAt).map (List.filterMap id) >>=
          fun more => .ok (found.toList ++ more) := by
      rw [List.mapM_cons]
      cases w.initialAt path with
      | error f => rfl
      | ok found =>
        cases paths.mapM w.initialAt with
        | error f => rfl
        | ok more =>
          cases found with
          | none => rfl
          | some file => rfl
    rw [hboth]
    exact (steadily_initialFileAt path).bind fun _ => ih.bind fun _ => steadily_pure _

/-- **What a directory lists** is not refused. -/
theorem steadily_list {directory : Path} (h : w.holds Node.isDirectory directory = .ok true) :
    Steadily w.LoadsAlike (.ok ((w.listed directory).map directory.entry)) (Files.list directory) := by
  intro u hu
  have hfiles : u.files = w.files := by rw [hu.same]; rfl
  have hcwd : u.cwd = w.cwd := by rw [hu.same]; rfl
  obtain ⟨node, hnode, hkind⟩ := World.holds_eq_true_iff.mp h
  obtain ⟨name, hname, hfind⟩ := World.nodeAt_eq_some_iff.mp hnode
  -- A path at which a directory is found resolves to a directory, so it is listed.
  obtain ⟨names, hlisting⟩ : ∃ names, w.files.listing w.cwd name = .ok names := by
    unfold FileTree.listing FileTree.directory
    unfold FileTree.find at hfind
    split at hfind
    · cases hfind
    · rename_i hresolve
      cases hfind
      rw [hresolve]
      cases node with
      | directory => exact ⟨_, rfl⟩
      | file content => cases hkind
      | link target => cases hkind
    · cases hfind
    · rename_i hresolve
      rw [hresolve]
      exact ⟨_, rfl⟩
  have hlisted : w.listed directory = names := by
    unfold World.listed
    rw [hname]
    simp only [hlisting]
  rw [← hfiles, ← hcwd] at hlisting
  rw [hlisted]
  exact steadily_of_ok (Files.run_list hname hlisting) hu

/-- A path that leads nowhere leads to no directory. -/
theorem World.modulesIn_eq (directory : Path) : w.modulesIn directory
    = w.holds (fun _ => true) directory >>= fun there =>
      if !there then .ok [] else w.modulesIn directory := by
  unfold World.modulesIn World.holds
  cases w.nodeAt directory with
  | error f => rfl
  | ok node? =>
    cases node? with
    | none => rfl
    | some node => rfl

/-- A directory is searched from the files alone, with what `modulesIn` tells. -/
theorem steadily_discover (directory : Path) :
    Steadily w.LoadsAlike (w.modulesIn directory) (discover directory) := by
  have hwarning : (Event.log .warning .loader
      ("Commands path is not a directory: " ++ directory.toString)).isFailedLoad = false := by
    simp [Event.isFailedLoad, Text.startsWith, failedLoad, List.isPrefixOf]
  rw [World.modulesIn_eq]
  refine (steadily_isThere directory).bind fun there => ?_
  cases there with
  | false => exact steadily_pure []
  | true =>
    refine (steadily_isDirectory directory).bind_of fun isDirectory hdirectory => ?_
    cases isDirectory with
    | false => exact (steadily_log hwarning w).bind fun _ => steadily_pure []
    | true =>
      have hfiles : Steadily w.LoadsAlike
          (((w.listed directory).map directory.entry).mapM w.initialAt |>.map (List.filterMap id))
          (Files.list directory >>= initialFiles) :=
        (steadily_list hdirectory).bind fun paths => steadily_initialFiles paths
      rw [List.mapM_map] at hfiles
      exact hfiles

/-- **The search gives the modules of the world**, whatever was reported before, and reports nothing that
loading tells. -/
theorem Loader.steadily_index : Steadily w.LoadsAlike w.modules Loader.index := by
  intro u hu
  have hdirectories : u.loader.directories = w.loader.directories := by rw [hu.same]; rfl
  have hsearch := (steadily_mapM fun d (_ : d ∈ w.loader.directories) =>
    steadily_discover (w := w) d).bind fun files => steadily_pure (World.indexOf files.flatten)
  have hindex : Loader.index.run u = (w.loader.directories.mapM discover >>= fun files =>
      pure (World.indexOf files.flatten)).run u := by
    unfold Loader.index
    rw [run_bind_ok (EStateM.run_get u), hdirectories]
    rfl
  have hends := hsearch u hu
  unfold World.outcome World.after at hends ⊢
  rw [hindex]
  exact hends

end CommandShell
