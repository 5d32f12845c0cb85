import CommandShell.Proofs.Registry.Aliases
import CommandShell.Proofs.Registry.Redirects
import CommandShell.Proofs.Session.Quiet
import CommandShell.Proofs.Table
import CommandShell.Session.Basic

/-! # Sessions that are ready

A session is `Ready` to read and run lines when no alias of its registry dangles, its handlers are
quiet, the modules that it may come to import are tame, and its history can be added to. In the midst of
everything else modules are imported and reports are made. All that these change is what is registered
and what was reported: the world is `Still`, and stays ready. -/

namespace CommandShell

/-- Whether an event is something that the shell does. Imports and reports are not. -/
def Event.isAct : Event → Bool
  | .probe _ _ => true
  | .run _ => true
  | .called _ _ => true
  | .recorded _ => true
  | .out _ => true
  | .imported _ => false
  | .log _ _ _ => false
  | .err _ => false

/-- A report is no act. -/
theorem Event.isAct_of_isReport {e : Event} (h : e.isReport = true) : e.isAct = false := by
  cases e with
  | log level source message => rfl
  | err text => rfl
  | _ => cases h

/-- A registry in which no alias dangles and all handlers are quiet. -/
structure Registry.Sound (r : Registry) : Prop where
  /-- Every alias leads to a command. -/
  closed : r.NoDangling
  /-- Every handler only prints, returns or raises. -/
  quiet : ∀ k e, r.commands.get? k = some e → e.handler.isQuiet = true

/-- A sound registry stays sound when a quiet entry is added. -/
theorem Registry.Sound.add {r : Registry} (h : r.Sound) {e : Entry}
    (he : e.handler.isQuiet = true) : (r.add e).Sound := by
  refine ⟨h.closed.add e, ?_⟩
  intro k e' hk
  rw [commands_add] at hk
  split at hk
  · cases hk
    exact he
  · exact h.quiet k e' hk

/-- What is found in a sound registry is quiet. -/
theorem Registry.Sound.quiet_of_find {r : Registry} (h : r.Sound) {name : String} {e : Entry}
    (hfind : r.find name = .ok (some e)) : e.handler.isQuiet = true := by
  obtain ⟨k, hk⟩ := Registry.exists_get?_of_find hfind
  exact h.quiet k e hk

/-! ## The world of a session -/

namespace World

/-- What the shell did, oldest first. -/
def acts (w : World) : List Event := w.trace.filter Event.isAct

/-- The acts among some events come to those before. -/
theorem acts_emitted (w : World) (es : List Event) :
    (w.emitted es).acts = w.acts ++ es.filter Event.isAct := List.filter_append _ _

/-- A log record brings no acts. -/
theorem acts_reported (w : World) (level : Level) (source : LogSource) (message : String) :
    (w.emitted (w.reports level source message)).acts = w.acts := by
  have hnone : (w.reports level source message).filter Event.isAct = [] := by
    refine List.filter_eq_nil_iff.mpr ?_
    intro e he hact
    rw [Event.isAct_of_isReport (isReport_of_mem_reports he)] at hact
    cases hact
  rw [acts_emitted, hnone, List.append_nil]

/-- The registry of the session. -/
def commands (w : World) : Registry := w.registries.get w.context.registry

/-- The absolute form of a path; in a lost directory a path stays as it is. -/
def absolute (w : World) (path : Path) : Path :=
  match w.cwd.location? with
  | some place => (Path.ofNames place).join path
  | none => path

/-- The initial file of the module of a name in a directory. -/
def moduleFile (directory : Path) (name : String) : Path :=
  Path.child ⟨directory.root, directory.parts ++ [RawText.ofString name]⟩ initialFile

/-- In one of the directories of the loader there is this module. -/
def Finds (w : World) (m : Module) : Prop :=
  ∃ d ∈ w.loader.directories, ∃ name file place,
    Files.fileName (w.absolute (moduleFile d name)).text = .ok file ∧
      w.files.read w.cwd file = .ok (place, .code m)

/-- The history can be added to: if it is kept in a file, the file can be written. -/
def CanRecord (w : World) : Prop :=
  ∀ path, w.history = .file path → ∃ name files, Files.fileName path.text = .ok name ∧
    w.files.write w.cwd name (fun _ => .bytes []) = .ok files

/-- A world whose session can read and run lines. -/
structure Ready (w : World) : Prop where
  /-- No alias dangles, and all handlers are quiet. -/
  commands : w.commands.Sound
  /-- The modules that may be imported are tame. -/
  modules : ∀ m, w.Finds m → m.isTame = true
  /-- The history can be added to. -/
  records : w.CanRecord

/-- Nothing was done between two worlds but that modules were imported and reports were made. -/
structure Still (w w' : World) : Prop where
  /-- Nothing was done. -/
  acts : w'.acts = w.acts
  /-- The files are the same. -/
  files : w'.files = w.files
  /-- The working directory is the same. -/
  cwd : w'.cwd = w.cwd
  /-- The host is the same. -/
  host : w'.host = w.host
  /-- So is the program that answers probes. -/
  probeCommand : w'.probeCommand = w.probeCommand
  /-- Nothing was added to the history. -/
  history : w'.history = w.history
  /-- Handlers are given the same. -/
  context : w'.context = w.context
  /-- The session is the same. -/
  session : w'.session = w.session
  /-- Modules are looked for in the same directories. -/
  directories : w'.loader.directories = w.loader.directories
  /-- It is the same time. -/
  time : w'.time = w.time

namespace Still

variable {u v w w' : World}

/-- A world has done nothing to itself. -/
theorem refl (w : World) : w.Still w := ⟨rfl, rfl, rfl, rfl, rfl, rfl, rfl, rfl, rfl, rfl⟩

/-- Nothing done twice is nothing done. -/
theorem trans (h : u.Still v) (h' : v.Still w) : u.Still w where
  acts := h'.acts.trans h.acts
  files := h'.files.trans h.files
  cwd := h'.cwd.trans h.cwd
  host := h'.host.trans h.host
  probeCommand := h'.probeCommand.trans h.probeCommand
  history := h'.history.trans h.history
  context := h'.context.trans h.context
  session := h'.session.trans h.session
  directories := h'.directories.trans h.directories
  time := h'.time.trans h.time

/-- The same modules are found. -/
theorem finds (h : w.Still w') {m : Module} (hm : w'.Finds m) : w.Finds m := by
  unfold Finds absolute at hm ⊢
  rw [h.directories, h.cwd, h.files] at hm
  exact hm

/-- A world stays ready if its registry stays sound. -/
theorem ready (h : w.Still w') (hready : w.Ready) (hcommands : w'.commands.Sound) : w'.Ready := by
  refine ⟨hcommands, fun m hm => hready.modules m (h.finds hm), ?_⟩
  unfold CanRecord
  rw [h.history, h.cwd, h.files]
  exact hready.records

end Still

/-- What is ready stays so, and nothing is done. -/
def Calm (w w' : World) : Prop := w.Ready → w'.Ready ∧ w.Still w'

/-- Calm actions may be put together. -/
theorem frame_calm : Shell.Frame Calm where
  refl w h := ⟨h, .refl w⟩
  trans huv hvw hu := by
    obtain ⟨hv, hstill⟩ := huv hu
    obtain ⟨hw, hstill'⟩ := hvw hv
    exact ⟨hw, hstill.trans hstill'⟩

/-- New registries leave the world calm if that of the session stays sound. -/
theorem calm_registries {w : World} {rs : Registries}
    (h : w.commands.Sound → (rs.get w.context.registry).Sound) : Calm w { w with registries := rs } := by
  intro hready
  have hstill : w.Still { w with registries := rs } := ⟨rfl, rfl, rfl, rfl, rfl, rfl, rfl, rfl, rfl, rfl⟩
  exact ⟨hstill.ready hready (h hready.commands), hstill⟩

end World

namespace Shell

open World

/-- Logging is calm. -/
theorem calm_log (level : Level) (source : LogSource) (message : String) :
    Within Calm (log level source message) := by
  intro w hready
  rw [after_of_ok (run_log level source message w)]
  have hstill : w.Still (w.emitted (w.reports level source message)) :=
    ⟨acts_reported w level source message, rfl, rfl, rfl, rfl, rfl, rfl, rfl, rfl, rfl⟩
  exact ⟨hstill.ready hready hready.commands, hstill⟩

/-- An import is no act, so noting it is calm. -/
theorem calm_imported (module : String) : Within Calm (emit (.imported module)) := by
  refine within_emit ?_
  intro w hready
  have hacts : (w.emitted [.imported module]).acts = w.acts := by
    rw [acts_emitted]
    exact List.append_nil _
  have hstill : w.Still (w.emitted [.imported module]) :=
    ⟨hacts, rfl, rfl, rfl, rfl, rfl, rfl, rfl, rfl, rfl⟩
  exact ⟨hstill.ready hready hready.commands, hstill⟩

/-! ## Registering -/

/-- Adding a quiet entry to a registry leaves that of the session sound. -/
theorem calm_add (i : RegistryId) {e : Entry} (he : e.handler.isQuiet = true) :
    Within Calm (add i e) := by
  intro w
  -- Redirections that go in circles are refused, and nothing is added.
  cases hadd : w.registries.add? i e with
  | none =>
    have hrun : (add i e).run w = .error .nesting w := by
      unfold add
      rw [run_bind_ok (EStateM.run_get w), hadd]
      rfl
    rw [after_of_error hrun]
    exact frame_calm.refl w
  | some rs =>
    have hrun : (add i e).run w = .ok () { w with registries := rs } := by
      unfold add
      rw [run_bind_ok (EStateM.run_get w), hadd]
      rfl
    rw [after_of_ok hrun]
    refine calm_registries ?_
    intro hsound
    unfold Registries.add? at hadd
    obtain ⟨j, _, rfl⟩ := Option.map_eq_some_iff.mp hadd
    rw [Registries.get_set]
    split
    · rename_i hj
      rw [hj]
      exact hsound.add he
    · exact hsound

/-- Registering a quiet entry is calm. -/
theorem calm_register (i : RegistryId) {e : Entry} (he : e.handler.isQuiet = true) :
    Within Calm (register i e) := by
  intro w
  have hnumber : Calm w { w with registries := (w.registries.number e).2 } := calm_registries id
  exact frame_calm.trans hnumber (calm_add i (e := (w.registries.number e).1) he _)

/-- A registry that is redirected for a while holds what it held. -/
theorem run_redirected {α : Type} {i target : RegistryId} {a : Shell α} {w w' : World} {x : α}
    (h : a.run { w with registries := (w.registries.enter i target).2 } = .ok x w')
    (hcalm : Calm { w with registries := (w.registries.enter i target).2 } w') :
    ∃ w'', (redirected i target a).run w = .ok x w'' ∧ Calm w w'' := by
  refine ⟨{ w' with registries := w'.registries.leave (w.registries.enter i target).1 }, ?_, ?_⟩
  · -- The redirection is left as well when the action returns.
    have hcaught := run_catch_ok h fun f => do
      modify fun w' => { w' with registries := w'.registries.leave (w.registries.enter i target).1 }
      throw f
    exact run_bind_ok hcaught fun x => do
      modify fun w' => { w' with registries := w'.registries.leave (w.registries.enter i target).1 }
      pure x
  · have henter : Calm w { w with registries := (w.registries.enter i target).2 } := by
      refine calm_registries ?_
      intro hsound
      rw [Registries.get_enter]
      exact hsound
    refine frame_calm.trans henter (frame_calm.trans hcalm ?_)
    refine calm_registries ?_
    intro hsound
    rw [Registries.get_leave]
    exact hsound

end Shell

end CommandShell
