import CommandShell.Proofs.Loader.Discovery
import CommandShell.Proofs.Session.Calls
import CommandShell.Proofs.Session.Deeds
import CommandShell.Proofs.Shell.Tending

/-! # What is not recorded is not done

What a shell does in steps is to probe and run programs of the host, to import modules, to call handlers and
to record entries (`Event.isStep`). Once all modules that are found are loaded, it imports nothing, and all
else that succeeds is recorded. So an action that returns without having recorded anything took no step
(`Shell.Books`): a line that it ran had no command, and a program that it looked for would have been run. In
particular a handler that returns and records nothing takes no step but that of its own call
(`Dispatch.steps_callHandler`). -/

namespace CommandShell

open Shell

/-! ## Steps -/

/-- Whether an event is a step of the shell. What is printed and reported is none. -/
def Event.isStep : Event → Bool
  | .probe _ _ => true
  | .run _ => true
  | .imported _ => true
  | .called _ _ => true
  | .recorded _ => true
  | .out _ => false
  | .err _ => false
  | .log _ _ _ => false

/-- A report is no step. -/
theorem Event.isStep_of_isReport {e : Event} (h : e.isReport = true) : e.isStep = false := by
  cases e with
  | log level source message => rfl
  | err text => rfl
  | _ => cases h

namespace World

/-- The steps that were taken, oldest first. -/
def steps (w : World) : List Event := w.trace.filter Event.isStep

/-- The entries that were recorded, oldest first. -/
def entries (w : World) : List String := w.trace.filterMap Event.entry?

variable {u v w : World}

/-- The steps among some events come to those before. -/
theorem steps_emitted (w : World) (es : List Event) :
    (w.emitted es).steps = w.steps ++ es.filter Event.isStep := List.filter_append _ _

/-- Reports bring no steps. -/
theorem steps_reported (w : World) {es : List Event} (h : ∀ e ∈ es, e.isReport = true) :
    (w.emitted es).steps = w.steps := by
  have hnone : es.filter Event.isStep = [] :=
    List.filter_eq_nil_iff.mpr fun e he => by simp [Event.isStep_of_isReport (h e he)]
  rw [steps_emitted, hnone, List.append_nil]

/-! ## Worlds in which all is loaded -/

/-- All modules that are found were imported, or failed. -/
def AllLoaded (w : World) : Prop := ∃ t, w.modules = .ok t ∧ ∀ k ∈ t.keys, k ∈ w.loader.attempted

/-- No step was taken between two worlds, and modules are found where they were. -/
structure Hushed (u v : World) : Prop where
  /-- No step was taken. -/
  steps : v.steps = u.steps
  /-- The files are the same. -/
  files : v.files = u.files
  /-- The working directory is the same. -/
  cwd : v.cwd = u.cwd
  /-- The loader is the same. -/
  loader : v.loader = u.loader

/-- Where no step was taken the same modules are found. -/
theorem Hushed.modules (h : u.Hushed v) : v.modules = u.modules := by
  unfold World.modules modulesIn initialAt holds nodeAt listed
  rw [h.loader, h.files, h.cwd]

/-- Where no step was taken all stays loaded. -/
theorem Hushed.allLoaded (h : u.Hushed v) (hu : u.AllLoaded) : v.AllLoaded := by
  unfold AllLoaded
  rw [h.modules, h.loader]
  exact hu

/-- No step twice is no step. -/
theorem Hushed.trans (h : u.Hushed v) (h' : v.Hushed w) : u.Hushed w :=
  ⟨h'.steps.trans h.steps, h'.files.trans h.files, h'.cwd.trans h.cwd, h'.loader.trans h.loader⟩

/-- Reports are no steps. -/
theorem OnlyReports.hushed (h : u.OnlyReports v) : u.Hushed v := by
  obtain ⟨es, hes, rfl⟩ := h
  exact ⟨steps_reported u hes, rfl, rfl, rfl⟩

/-- If all was loaded, no step was taken. -/
def Idle (u v : World) : Prop := u.AllLoaded → u.Hushed v

/-- Printing is idle, and idle actions may be put together. -/
theorem printing_idle : Frame.Printing Idle where
  refl _ _ := ⟨rfl, rfl, rfl, rfl⟩
  trans h h' hu := (h hu).trans (h' ((h hu).allLoaded hu))
  reported w _ hes _ := ⟨steps_reported w hes, rfl, rfl, rfl⟩
  printed w text _ := ⟨(steps_emitted w [.out text]).trans (List.append_nil _), rfl, rfl, rfl⟩

/-- If all was loaded, there were only reports. -/
def Quieted (u v : World) : Prop := u.AllLoaded → u.OnlyReports v

/-- What only reports is idle. -/
theorem Quieted.idle (h : u.Quieted v) : u.Idle v := fun hu => (h hu).hushed

/-- Logging is quiet, and quiet actions may be put together. -/
theorem logging_quieted : Frame.Logging Quieted where
  refl w _ := logging_onlyReports.refl w
  trans h h' hu := logging_onlyReports.trans (h hu) (h' ((h hu).hushed.allLoaded hu))
  reported _ es hes _ := ⟨es, hes, rfl⟩

/-- Where nothing is searched, all is loaded. -/
theorem allLoaded_of_directories (h : w.loader.directories = []) : w.AllLoaded := by
  have hnone : w.modules = .ok {} := by
    rw [World.modules, h]
    rfl
  exact ⟨{}, hnone, fun k hk => absurd hk List.not_mem_nil⟩

/-- Neither registries nor the session are of account. -/
theorem idle_registries (w : World) (registries : Registries) : w.Idle { w with registries } :=
  fun _ => ⟨rfl, rfl, rfl, rfl⟩

/-- A change of the session is idle. -/
theorem idle_session (w : World) (session : Session) : w.Idle { w with session } :=
  fun _ => ⟨rfl, rfl, rfl, rfl⟩

end World

open World

variable {u v w : World}

/-! ## Loading what is loaded -/

namespace Loader

/-- Where all is loaded, the search finds no module that was not tried. -/
theorem run_index_of_allLoaded (h : w.AllLoaded) : ∃ t v, index.run w = .ok t v ∧ w.OnlyReports v ∧
    ∀ k ∈ t.keys, k ∈ w.loader.attempted := by
  obtain ⟨t, hmodules, htried⟩ := h
  have hindex : w.outcome index = .ok t := (steadily_index w (LoadsAlike.refl w)).1.trans hmodules
  obtain ⟨v, hrun⟩ := exists_run_of_outcome hindex
  exact ⟨t, v, hrun, (heeds_index logging_onlyReports).within.of_ok hrun, htried⟩

/-- **Where all is loaded**, loading a module only reports. -/
theorem run_load_of_allLoaded (h : w.AllLoaded) (name : String) :
    ∃ v, (load name).run w = .ok () v ∧ w.OnlyReports v := by
  unfold load
  dsimp only
  rw [run_bind_ok (EStateM.run_get w)]
  split
  · exact ⟨w, rfl, logging_onlyReports.refl w⟩
  · rename_i hnew
    obtain ⟨t, v, hrun, hreports, htried⟩ := run_index_of_allLoaded h
    have hnone : t.get? (normalName name) = none := by
      by_contra hsome
      obtain ⟨file, hfile⟩ := Option.ne_none_iff_exists'.mp hsome
      exact hnew (List.contains_iff_mem.mpr (htried _ (Table.mem_keys_iff.mpr ⟨file, hfile⟩)))
    rw [run_bind_ok hrun, hnone]
    have hlog := (logging_onlyReports.heeds_log .debug .loader
      ("No command module for " ++ Text.quoted name)).within v
    rw [after_of_ok (run_log _ _ _ v)] at hlog
    exact ⟨_, run_log _ _ _ v, logging_onlyReports.trans hreports hlog⟩

/-- Modules that were all tried are passed over. -/
theorem run_loadFound_of_tried (verbose : Bool) {fs : List (String × Path)}
    (h : ∀ f ∈ fs, f.1 ∈ w.loader.attempted) : (loadFound verbose fs).run w = .ok 0 w := by
  induction fs with
  | nil => rfl
  | cons f fs ih =>
    obtain ⟨hf, hfs⟩ := List.forall_mem_cons.mp h
    rw [loadFound, run_bind_ok (EStateM.run_get w), if_pos (List.contains_iff_mem.mpr hf)]
    exact ih hfs

/-- Once all is loaded, loading one name only reports. -/
theorem quieted_load (name : String) : Within Quieted (load name) := by
  intro w h
  obtain ⟨v, hrun, hreports⟩ := run_load_of_allLoaded h name
  rw [after_of_ok hrun]
  exact hreports

/-- Once all is loaded, loading all modules only reports. -/
theorem quieted_loadAll (verbose : Bool) : Within Quieted (loadAll verbose) := by
  intro w h
  obtain ⟨t, v, hrun, hreports, htried⟩ := run_index_of_allLoaded h
  have hfound : (loadFound verbose t.toList).run v = .ok 0 v := by
    refine run_loadFound_of_tried verbose fun f hf => ?_
    rw [hreports.loader]
    exact htried _ (List.mem_map_of_mem hf)
  rw [loadAll, after_bind_ok hrun, after_of_ok hfound]
  exact hreports

/-- Once all is loaded, loading one name takes no step. -/
theorem idle_load (name : String) : Within Idle (load name) := (quieted_load name).mono Quieted.idle

/-- Once all is loaded, loading all modules takes no step. -/
theorem idle_loadAll (verbose : Bool) : Within Idle (loadAll verbose) :=
  (quieted_loadAll verbose).mono Quieted.idle

end Loader

/-! ## Booking -/

/-- As many entries or more were recorded. -/
def World.Longer (u v : World) : Prop := u.entries.length ≤ v.entries.length

/-- Entries that are never fewer after each action are never fewer in the end. -/
theorem World.frame_longer : Frame Longer := ⟨fun _ => Nat.le_refl _, Nat.le_trans⟩

/-- The entries of deeds come behind those that were recorded. -/
theorem World.Accounts.entries {ds : List Deed} (h : w.Accounts ds v) :
    v.entries = w.entries ++ (Deed.events ds).filterMap Event.entry? := by
  have hentries (x : World) : x.entries = x.events.filterMap Event.entry? :=
    (filterMap_entry?_filter x.trace).symm
  rw [hentries, hentries, h.events, List.filterMap_append]

namespace Shell

variable {α β : Type} {a : Shell α} {g : α → Shell β}

/-- What is told by deeds takes no entry away. -/
theorem Tells.longer {ds : World → List Deed} (h : Tells a ds) : Within Longer a := by
  intro w
  unfold Longer
  rw [(h w).entries, List.length_append]
  exact Nat.le_add_right _ _

/-- What is routine takes no entry away. -/
theorem Routine.longer (h : Routine False Session.Input a) : Within Longer a := (tells_routine h).longer

/-- An action **records**: whenever it returns, there are more entries. -/
def Records (a : Shell α) : Prop :=
  ∀ u x v, a.run u = .ok x v → u.entries.length < v.entries.length

/-- A fault never returns, so it records vacuously. -/
theorem records_throw (f : Fault) : Records (throw f : Shell α) := fun _ _ _ h => nomatch h

/-- Storing an entry records. -/
theorem records_record (entry : String) : Records (record entry) := by
  intro u x v hrun
  have hentries : (u.after (record entry)).entries = u.entries
      ++ (Deed.events (u.recorded entry (record entry))).filterMap Event.entry? :=
    (tells_record entry u).entries
  rw [recorded_of_ok hrun, after_of_ok hrun] at hentries
  rw [hentries, List.length_append]
  exact Nat.lt_add_of_pos_right Nat.zero_lt_one

/-- What records goes on recording with anything that takes no entry away. -/
theorem Records.bind_left (ha : Records a) (hg : ∀ x, Within Longer (g x)) : Records (a >>= g) := by
  intro u y v hrun
  obtain ⟨x, u₁, hfirst, hrest⟩ := run_bind_eq_ok_iff.mp hrun
  exact Nat.lt_of_lt_of_le (ha u x u₁ hfirst) ((hg x).of_ok hrest)

/-- What records may stand behind anything that takes no entry away. -/
theorem Records.bind_right (ha : Within Longer a) (hg : ∀ x, Records (g x)) : Records (a >>= g) := by
  intro u y v hrun
  obtain ⟨x, u₁, hfirst, hrest⟩ := run_bind_eq_ok_iff.mp hrun
  exact Nat.lt_of_le_of_lt (ha.of_ok hfirst) (hg x u₁ y v hrest)

/-- An action **books** what it does: entries only ever come to those that were recorded, and if it returns
and none came, it was idle. -/
structure Books (a : Shell α) : Prop where
  /-- Entries come to those that were recorded. -/
  longer : Within Longer a
  /-- Without a new entry it was idle. -/
  idle : ∀ u x v, a.run u = .ok x v → v.entries.length ≤ u.entries.length → u.Idle v

/-- What records books what it does. -/
theorem Books.of_records (hlonger : Within Longer a) (h : Records a) : Books a :=
  ⟨hlonger, fun u x v hrun hnone => absurd (h u x v hrun) (Nat.not_lt.mpr hnone)⟩

/-- So does what is idle. -/
theorem Books.of_idle (hlonger : Within Longer a) (h : Within Idle a) : Books a :=
  ⟨hlonger, fun _ _ _ hrun _ => h.of_ok hrun⟩

/-- What only gives something books. -/
theorem books_pure (x : α) : Books (pure x : Shell α) :=
  .of_idle (frame_longer.within_pure x) (printing_idle.within_pure x)

/-- So does a fault. -/
theorem books_throw (f : Fault) : Books (throw f : Shell α) :=
  .of_records (frame_longer.within_throw f) (records_throw f)

/-- Booking goes on from one action to the next: without a new entry there is none in either. -/
theorem Books.bind (ha : Books a) (hg : ∀ x, Books (g x)) : Books (a >>= g) where
  longer := frame_longer.within_bind ha.longer fun x => (hg x).longer
  idle := by
    intro u y v hrun hnone
    obtain ⟨x, u₁, hfirst, hrest⟩ := run_bind_eq_ok_iff.mp hrun
    have hlonger : u.Longer u₁ := ha.longer.of_ok hfirst
    have hlonger' : u₁.Longer v := (hg x).longer.of_ok hrest
    exact printing_idle.trans (ha.idle u x u₁ hfirst (Nat.le_trans hlonger' hnone))
      ((hg x).idle u₁ y v hrest (Nat.le_trans hnone hlonger))

/-- What is done with the present world is asked about at that world. -/
theorem books_get_bind {g : World → Shell β} (h : ∀ w, Books (g w)) : Books (get >>= g) :=
  .bind (.of_idle frame_longer.within_get printing_idle.within_get) h

/-- A routine action that is idle books. -/
theorem books_routine (h : Routine False Session.Input a) (hidle : Within Idle a) : Books a :=
  .of_idle h.longer hidle

end Shell

/-! ## Reading lines -/

namespace Session

/-- **Running commands on the host** books them: each that is found is run and recorded. -/
theorem books_runSystem (commands : List (Option String)) : Books (Dispatch.runSystem commands) := by
  have hlonger (commands : List (Option String)) : Within Longer (Dispatch.runSystem commands) :=
    (Dispatch.routine_runSystem (fun _ h => h) commands).longer
  induction commands with
  | nil => exact books_pure _
  | cons command rest ih =>
    cases command with
    | none => exact ih
    | some command =>
      cases hblank : Line.isBlank command with
      | true =>
        rw [Dispatch.runSystem_of_isBlank hblank]
        exact ih
      | false =>
        refine .of_records (hlonger _) ?_
        rw [Dispatch.runSystem_cons hblank]
        -- The entry is recorded behind the run, so neither the probe nor the run has to record one.
        refine .bind_right (Dispatch.routine_isSystemCommand _).longer fun found => ?_
        split
        · refine .bind_right (Routine.own (.ran command)).longer fun _ => ?_
          exact .bind_left (records_record command) fun _ => hlonger rest
        · exact records_throw _

/-- Running commands on the host books: each command that is run is recorded. -/
theorem books_runSystemCommands (cs : List Command) : Books (runSystemCommands cs) := by
  induction cs with
  | nil => exact books_pure _
  | cons c cs ih =>
    unfold runSystemCommands
    split
    · exact .bind (books_runSystem _) fun _ => ih
    · exact ih

/-- **Giving a session a line** books what is done. -/
theorem books_setInput (line : String) : Books (setInput line) := by
  have hsession (g : World → Session) (h : Routine False Session.Input
      (modify fun w => { w with session := g w } : Shell PUnit)) :
      Books (modify fun w => { w with session := g w } : Shell PUnit) :=
    books_routine h fun w => w.idle_session _
  unfold setInput
  split
  · exact books_pure _
  · refine .bind (hsession _ (.own (.take line))) fun _ => ?_
    refine .bind (books_routine (routine_parse line) ?_) fun cs => ?_
    · exact within_parse printing_idle.toLogging (Loader.idle_loadAll false) line
    · exact .bind (hsession _ (.own (.keep cs))) fun _ => books_runSystemCommands cs

end Session

/-! ## Calling handlers -/

namespace Dispatch

/-- The step of calling an entry. A command that comes with the shell shows in what it prints only. -/
def callStep (e : Entry) (arguments : List String) : List Event :=
  let given := arguments.map Argument.text
  match e.handler with
  | .script _ => [.called e.name (if e.passContext then .context :: given else given)]
  | .builtin _ _ => []

/-- The step adds no entry to the history. -/
theorem filterMap_entry?_callStep (e : Entry) (arguments : List String) :
    (callStep e arguments).filterMap Event.entry? = [] := by
  unfold callStep
  dsimp only
  split <;> rfl

/-- An action that books does so where it needs the context. -/
theorem books_needContext {a : Shell Unit} (h : Books a) (hasContext : Bool) (part : String) :
    Books (needContext hasContext part a) := by
  unfold needContext
  split
  · exact h
  · exact books_throw _

/-- An action that books does so with the session. -/
theorem books_withSession {a : Shell Unit} (h : Books a) (hasContext : Bool) :
    Books (withSession hasContext a) := by
  refine books_needContext (books_get_bind fun w => ?_) _ _
  split
  · exact h
  · exact books_throw _

/-- Registering is idle. -/
theorem idle_register (i : RegistryId) (e : Entry) : Within Idle (register i e) := by
  have hR := printing_idle.toFrame
  have hadd (e : Entry) : Within Idle (add i e) := by
    refine hR.within_bind hR.within_get fun w => ?_
    split
    · exact fun v => v.idle_registries _
    · exact hR.within_throw _
  refine hR.within_bind hR.within_get fun w => ?_
  exact hR.within_bind (fun v => v.idle_registries _) fun _ => hadd _

section

variable {rerun : String → Shell Unit} (hrerun : ∀ line, Books (rerun line))

include hrerun

/-- **An action of a handler** books what it does, if running a line does. -/
theorem books_perform (hasContext : Bool) (action : Action) :
    Books (perform rerun Session.setInput hasContext action) := by
  have hR := printing_idle
  have hdone {a : Shell Unit} (h : Books a) : Books (perform.done a) :=
    .bind h fun _ => books_pure none
  -- Only the two actions that run or read a line, and the one that records, bring steps.
  cases action with
  | unknown name => exact books_throw _
  | raise r => exact books_throw _
  | print text => exact hdone (books_routine (routine_printLine text) (hR.heeds_printLine text).within)
  | finish value => exact books_pure _
  | run line => exact hdone (books_withSession (hrerun line) _)
  | setInput line => exact hdone (books_withSession (Session.books_setInput line) _)
  | define d script =>
    refine hdone (books_needContext (books_get_bind fun w => ?_) _ _)
    exact books_routine (routine_register _ False.elim) (idle_register _ _)
  | undefine name =>
    refine hdone (books_needContext (books_get_bind fun w => ?_) _ _)
    exact books_routine (routine_unregister _ name) fun v => v.idle_registries _
  | record entry =>
    refine hdone (books_needContext ?_ _ _)
    exact .of_records (Routine.own (.record entry)).longer (records_record entry)
  | load name =>
    refine hdone (books_needContext (books_get_bind fun w => ?_) _ _)
    split
    · exact books_routine (Loader.routine_load name) (Loader.idle_load name)
    · exact books_throw _

/-- A script books, if the lines that it runs do. -/
theorem books_runScript (hasContext : Bool) (body : List Action) :
    Books (runScript rerun Session.setInput hasContext body) := by
  induction body with
  | nil => exact books_pure _
  | cons action rest ih =>
    rw [runScript_cons]
    refine .bind (books_perform hrerun hasContext action) fun value? => ?_
    cases value? with
    | none => exact ih
    | some value => exact books_pure value

end

/-- **A command that comes with the shell** takes no step where all is loaded. -/
theorem steps_call (hu : u.AllLoaded) (b : Builtin) (origin : Nat) (arguments : List String) :
    (u.after (b.call origin arguments)).steps = u.steps := by
  by_cases hb : b = .help
  · subst hb
    have hload : Heeds Idle (Loader.loadAll false) :=
      ⟨Loader.idle_loadAll false, Loader.faults_loadAll false⟩
    have hhelp : Within Idle (Builtin.help.call origin arguments) :=
      printing_idle.within_bind (Builtin.heeds_showHelp printing_idle hload).within
        fun _ => printing_idle.within_pure _
    exact (hhelp u hu).steps
  · have hR : Frame.Tending fun u v : World => v.steps = u.steps :=
      { refl := fun _ => rfl
        trans := fun h h' => h'.trans h
        reported := fun w _ hes => steps_reported w hes
        printed := fun w text => (steps_emitted w [.out text]).trans (List.append_nil _)
        files := fun _ _ => rfl
        cwd := fun _ _ => rfl
        previous := fun _ _ => rfl
        settings := fun _ _ => rfl }
    exact (Builtin.heeds_call hR hb origin arguments).within u

/-- **A handler that returns and records nothing** takes no step but that of its call, where all is
loaded. -/
theorem steps_callHandler {rerun : String → Shell Unit} (hrerun : ∀ line, Books (rerun line)) {e : Entry}
    {arguments : List String} {value : Json} (hu : u.AllLoaded)
    (hrun : (callHandler rerun Session.setInput e arguments).run u = .ok value v)
    (hnone : v.entries = u.entries) : v.steps = u.steps ++ callStep e arguments := by
  unfold callHandler at hrun
  unfold callStep
  cases hhandler : e.handler with
  | builtin b origin =>
    rw [hhandler] at hrun
    rw [← after_of_ok hrun, List.append_nil]
    exact steps_call hu b origin arguments
  | script body =>
    rw [hhandler] at hrun
    dsimp only at hrun ⊢
    rw [run_bind_ok (run_emit _ u)] at hrun
    -- The call itself is no entry, and loads nothing.
    have hentries : (World.emitted u [.called e.name (if e.passContext then .context ::
        arguments.map Argument.text else arguments.map Argument.text)]).entries = u.entries :=
      (List.filterMap_append ..).trans (List.append_nil _)
    have hidle := (books_runScript hrerun e.passContext body).idle _ _ _ hrun
      (Nat.le_of_eq (by rw [hnone, hentries]))
    exact (hidle hu).steps.trans (steps_emitted u _)

end Dispatch

/-! ## Running lines -/

namespace Session

/-- The command is dispatched, so it is recorded if this returns. -/
theorem records_executeOne (depth : Nat) {c : Command} (hc : c.isEmpty = false) :
    Records (executeOne (runNested depth) c) := by
  have hcall (e : Entry) (arguments : List String) :
      Within Longer (Dispatch.callHandler (runNested depth) setInput e arguments) :=
    (Dispatch.tells_callHandler (tells_runNested depth) e arguments).longer
  have hdispatch : Records (Dispatch.dispatch (runNested depth) setInput c) := by
    rw [Dispatch.dispatch_eq hc]
    refine .bind_right (Dispatch.routine_entryOf c).longer fun e? => ?_
    cases e? with
    | none => exact records_throw _
    | some e =>
      refine .bind_right (tells_log _ _ _).longer fun _ => ?_
      refine .bind_right (hcall e _) fun value => ?_
      exact .bind_left (records_record _) fun _ => frame_longer.within_pure value
  rw [executeOne_eq]
  refine .bind_right (routine_prepare c).longer fun _ => .bind_left hdispatch fun value => ?_
  split
  · exact fun w => Nat.le_refl _
  · exact frame_longer.within_pure _

/-- **Running lines, however deep within each other,** books what is done. -/
theorem books_runNested (depth : Nat) (line : String) : Books (runNested depth line) := by
  have hall (depth : Nat) (cs : List Command) : Books (executeAll (runNested depth) cs) := by
    induction cs with
    | nil => exact books_pure _
    | cons c cs ih =>
      cases hskip : c.isSystem || c.isEmpty with
      | true =>
        rw [executeAll_of_skipped hskip]
        exact ih
      | false =>
        have hempty : c.isEmpty = false := (Bool.or_eq_false_iff.mp hskip).2
        rw [executeAll_of_kept hskip]
        refine .bind (.of_records ?_ (records_executeOne depth hempty)) fun _ => ih
        exact (tells_executeOne (tells_runNested depth) hempty).longer
  -- At depth zero the run is a fault, which books nothing.
  cases depth with
  | zero => exact books_throw _
  | succ depth =>
    unfold runNested runWith
    split
    · exact books_pure _
    · refine .bind (books_setInput line) fun _ => books_get_bind fun w => ?_
      split
      · exact books_pure _
      · exact hall depth _

end Session

end CommandShell
