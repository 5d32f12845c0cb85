import CommandShell.Proofs.Session.Reentry
import CommandShell.Proofs.Session.Unrecorded

/-! # Executing a line again

Reading a line runs its commands for the host, once. Executing it calls its internal commands, and does so
each time that it is asked for: the call of each command that is known, with its arguments, and its entry in
the history, up to the first command that is unknown (`Registry.round`). In a kind of world in which all
modules are loaded and nothing comes between (`Session.Undisturbed`) nothing else is done, however often the
line is executed (`Session.executions_repeat`). -/

namespace CommandShell

open Shell

/-! ## One round -/

namespace Registry

/-- Whether an execution comes past a command: it is for the host, or its entry is known. -/
def handles (r : Registry) (c : Command) : Bool := !c.isInternal || (r.entryFor c).isSome

/-- The steps of executing a command: its entry is called and it is recorded. -/
def turn (r : Registry) (c : Command) : List Event :=
  match r.entryFor c with
  | none => []
  | some e => Dispatch.callStep e c.fields.tail ++ [.recorded c.text]

/-- The steps of executing some commands, up to the first one that is unknown. -/
def round (r : Registry) (cs : List Command) : List Event := (cs.takeWhile r.handles).flatMap r.turn

/-- How executing some commands ends: the first one that is unknown is missed. -/
def roundEnd (r : Registry) (cs : List Command) : Except Fault Unit :=
  match cs.find? fun c => !r.handles c with
  | none => .ok ()
  | some c => .error (.unknownCommand c.name)

variable {r : Registry} {c : Command}

/-- A command that is handled takes its turn before the others. -/
theorem round_cons_of_handled (h : r.handles c = true) (cs : List Command) :
    r.round (c :: cs) = r.turn c ++ r.round cs := by
  rw [round, List.takeWhile_cons_of_pos h, List.flatMap_cons]
  rfl

/-- An unknown command ends the round. -/
theorem round_cons_of_unknown (h : r.handles c = false) (cs : List Command) : r.round (c :: cs) = [] := by
  rw [round, List.takeWhile_cons_of_neg (Bool.eq_false_iff.mp h)]
  rfl

/-- A command that is handled does not bear on how the round ends. -/
theorem roundEnd_cons_of_handled (h : r.handles c = true) (cs : List Command) :
    r.roundEnd (c :: cs) = r.roundEnd cs := by
  unfold roundEnd
  rw [List.find?_cons_of_neg (by simp [h])]

/-- An unknown command is how the round ends. -/
theorem roundEnd_cons_of_unknown (h : r.handles c = false) (cs : List Command) :
    r.roundEnd (c :: cs) = .error (.unknownCommand c.name) := by
  unfold roundEnd
  rw [List.find?_cons_of_pos (by simp [h])]

/-- If all commands are known, executing them ends without a fault. -/
theorem roundEnd_of_handled {cs : List Command} (h : ∀ c ∈ cs, r.handles c = true) :
    r.roundEnd cs = .ok () := by
  have hnone : (cs.find? fun c => !r.handles c) = none :=
    List.find?_eq_none.mpr fun c hc => by simp [h c hc]
  rw [roundEnd, hnone]

/-- A round calls and records. -/
theorem called_or_recorded_of_mem_round {cs : List Command} {e : Event} (h : e ∈ r.round cs) :
    (∃ entry arguments, e = .called entry arguments) ∨ ∃ entry, e = .recorded entry := by
  obtain ⟨c, -, hturn⟩ := List.mem_flatMap.mp h
  unfold turn at hturn
  split at hturn
  · exact absurd hturn List.not_mem_nil
  · obtain hcall | hrecorded := List.mem_append.mp hturn
    · unfold Dispatch.callStep at hcall
      dsimp only at hcall
      split at hcall
      · exact .inl ⟨_, _, List.mem_singleton.mp hcall⟩
      · exact absurd hcall List.not_mem_nil
    · exact .inr ⟨_, List.mem_singleton.mp hrecorded⟩

end Registry

/-! ## What an execution leaves behind -/

namespace World

/-- Entries came to the history, each written down with the time at which it was recorded. -/
def Appended (w : World) (entries : List String) (w' : World) : Prop :=
  match w.history with
  | .memory kept => w'.history = .memory (kept ++ entries)
  | .file path => w'.history = .file path ∧ ∀ name, Files.fileName path.text = .ok name →
      ∃ stamped : List (String × String), stamped.map Prod.snd = entries ∧
        w'.bytesAt name = w.bytesAt name ++ stamped.flatMap fun s => HistoryFormat.written s.1 s.2

/-- These steps were taken between two worlds. The entries among them came to the history, and the line of
the session and the commands of the shell are the same. -/
structure Went (w : World) (es : List Event) (w' : World) : Prop where
  /-- The steps were taken. -/
  steps : w'.steps = w.steps ++ es
  /-- The entries among them came to the history. -/
  history : w.Appended (es.filterMap Event.entry?) w'
  /-- The session has the same line. -/
  name : w'.session.name = w.session.name
  /-- The line has the same commands. -/
  line : w'.session.commands = w.session.commands
  /-- The registry of the session is the same. -/
  commands : w'.commands = w.commands

/-- Neither the session, its registry nor the history changed. -/
structure LeftAlone (w w' : World) : Prop where
  /-- The session is the same. -/
  session : w'.session = w.session
  /-- The registry of the session is the same. -/
  commands : w'.commands = w.commands
  /-- The history is the same. -/
  history : w.Appended [] w'
  /-- Nothing was recorded. -/
  entries : w'.entries = w.entries

variable {u v w : World} {es fs : List Event}

/-- Entries that came first and then come together. -/
theorem Appended.trans {xs ys : List String} (h : u.Appended xs v) (h' : v.Appended ys w) :
    u.Appended (xs ++ ys) w := by
  unfold Appended at h ⊢
  cases hhistory : u.history with
  | memory kept =>
    simp only [hhistory] at h ⊢
    simp only [Appended, h] at h'
    rw [h', List.append_assoc]
  | file path =>
    simp only [hhistory] at h ⊢
    simp only [Appended, h.1] at h'
    refine ⟨h'.1, fun name hname => ?_⟩
    obtain ⟨s, hs, hbytes⟩ := h.2 name hname
    obtain ⟨s', hs', hbytes'⟩ := h'.2 name hname
    refine ⟨s ++ s', ?_, ?_⟩
    · rw [List.map_append, hs, hs']
    · rw [hbytes', hbytes, List.flatMap_append, List.append_assoc]

/-- No entries came where history, files and working directory are the same. -/
theorem appended_nil (hhistory : v.history = u.history) (hfiles : v.files = u.files)
    (hcwd : v.cwd = u.cwd) : u.Appended [] v := by
  unfold Appended bytesAt
  rw [hfiles, hcwd, hhistory]
  cases h : u.history with
  | memory kept => exact congrArg _ (List.append_nil kept).symm
  | file path => exact ⟨rfl, fun name _ => ⟨[], rfl, (List.append_nil _).symm⟩⟩

/-- A world went nowhere from itself. -/
theorem Went.refl (w : World) : w.Went [] w :=
  ⟨(List.append_nil _).symm, appended_nil rfl rfl rfl, rfl, rfl, rfl⟩

/-- Steps that were taken one after the other were taken together. -/
theorem Went.trans (h : u.Went es v) (h' : v.Went fs w) : u.Went (es ++ fs) w where
  steps := by rw [h'.steps, h.steps, List.append_assoc]
  history := by
    rw [List.filterMap_append]
    exact h.history.trans h'.history
  name := h'.name.trans h.name
  line := h'.line.trans h.line
  commands := h'.commands.trans h.commands

/-- Reports are no steps. -/
theorem OnlyReports.went (h : u.OnlyReports v) : u.Went [] v := by
  have hhushed := h.hushed
  obtain ⟨es, -, rfl⟩ := h
  exact ⟨hhushed.steps.trans (List.append_nil _).symm, appended_nil rfl rfl rfl, rfl, rfl, rfl⟩

/-- The steps among some deeds come behind those that were taken. -/
theorem Accounts.steps {ds : List Deed} (h : u.Accounts ds v) :
    v.steps = u.steps ++ (Deed.events ds).filter Event.isStep := by
  have hsteps (x : World) : x.steps = x.events.filter Event.isStep := by
    rw [World.steps, World.events, List.filter_filter]
    refine List.filter_congr fun e _ => ?_
    cases hreport : e.isReport with
    | false => rw [Bool.not_false, Bool.and_true]
    | true => rw [Event.isStep_of_isReport hreport, Bool.false_and]
  rw [hsteps, hsteps, h.events, List.filter_append]

/-- **Recording an entry** that succeeds appends it to the history. -/
theorem appended_record {entry : String} (hrun : (record entry).run u = .ok () v) :
    u.Appended [entry] v := by
  unfold Appended
  cases hhistory : u.history with
  | memory kept =>
    rw [run_record_of_memory hhistory] at hrun
    cases hrun
    rfl
  | file path =>
    rw [run_record_of_file hhistory] at hrun
    obtain ⟨_, u₁, happend, hemit⟩ := run_bind_eq_ok_iff.mp hrun
    obtain ⟨hsame, hbytes⟩ := bytesAt_appendBytes happend
    cases hemit
    refine ⟨hsame.trans hhistory, fun name hname => ⟨[(u.time, entry)], rfl, ?_⟩⟩
    show u₁.bytesAt name = u.bytesAt name ++ (HistoryFormat.written u.time entry ++ [])
    rw [hbytes name hname, List.append_nil]
    rfl

/-- Storing an entry is one step. -/
theorem went_record {entry : String} (hrun : (record entry).run u = .ok () v) :
    u.Went [.recorded entry] v := by
  have haside : u.Aside v := (aside_record entry).within.of_ok hrun
  have haccounts : u.Accounts (u.recorded entry (record entry)) (u.after (record entry)) :=
    tells_record entry u
  rw [recorded_of_ok hrun, after_of_ok hrun] at haccounts
  exact ⟨haccounts.steps, appended_record hrun, by rw [haside.session], by rw [haside.session],
    by rw [World.commands, haside.registries, haside.context]; rfl⟩

end World

open World

namespace Session

/-! ## Executing once -/

/-- A kind of world in which nothing disturbs the execution of some commands: all modules are loaded, entries
can be recorded, and the handlers of the commands return, leaving the session, its commands and the history
alone. Each of them, reports, and the wish to exit lead to worlds of the kind. -/
structure Undisturbed (I : World → Prop) (cs : List Command) : Prop where
  /-- All modules that are found are loaded. -/
  loaded : ∀ u, I u → u.AllLoaded
  /-- Reports may come to the trace. -/
  reported : ∀ u es, I u → (∀ e ∈ es, e.isReport = true) → I (u.emitted es)
  /-- A handler returns and changes nothing of account. -/
  returns : ∀ u, I u → ∀ c ∈ cs, ∀ e, u.commands.entryFor c = some e → ∃ value v,
    (Dispatch.callHandler (runNested maxNesting) setInput e c.fields.tail).run u = .ok value v ∧
      u.LeftAlone v ∧ I v
  /-- Recording a command succeeds. -/
  records : ∀ u, I u → ∀ c ∈ cs, ∃ v, (record c.text).run u = .ok () v ∧ I v
  /-- The shell may be asked to exit. -/
  exits : ∀ u, I u → I { u with session := { u.session with exitRequested := true } }

section

variable {I : World → Prop} {cs : List Command}

/-- Reports leave a world undisturbed. -/
theorem Undisturbed.onlyReports (h : Undisturbed I cs) {u v : World} (hu : I u)
    (hreports : u.OnlyReports v) : I v := by
  obtain ⟨es, hes, rfl⟩ := hreports
  exact h.reported u es hu hes

/-- Where all is loaded, preparing a command only reports. -/
theorem run_prepare_of_allLoaded {u : World} (hu : u.AllLoaded) (name : String) (vs ps : List String) :
    ∃ v, (prepare (.internal name vs ps)).run u = .ok () v ∧ u.OnlyReports v := by
  obtain ⟨v, hload, hreports⟩ := Loader.run_load_of_allLoaded hu name
  have hlog := (logging_onlyReports.heeds_log .debug .session
    (name ++ ": arguments " ++ kindsText (.internal name vs ps))).within v
  rw [after_of_ok (run_log _ _ _ v)] at hlog
  exact ⟨_, (run_bind_ok hload _).trans (run_log _ _ _ v), logging_onlyReports.trans hreports hlog⟩

variable (h : Undisturbed I cs)

include h

/-- **One command** that is known is called and recorded; one that is unknown is missed. -/
theorem run_executeOne {name : String} {vs ps : List String} (hc : .internal name vs ps ∈ cs) {u : World}
    (hu : I u) (hclosed : u.commands.NoDangling) :
    let c := Command.internal name vs ps
    ∃ v, I v ∧ u.Went (u.commands.turn c) v ∧
      (executeOne (runNested maxNesting) c).run u
        = if u.commands.handles c then .ok () v else .error (.unknownCommand c.name) v := by
  intro c
  obtain ⟨u₁, hprepare, hreports⟩ := run_prepare_of_allLoaded (h.loaded u hu) name vs ps
  have hu₁ : I u₁ := h.onlyReports hu hreports
  have hcommands : u₁.commands = u.commands := hreports.went.commands
  have hentry := run_entryOf_of_noDangling (u := u₁) (by rw [hcommands]; exact hclosed) name vs ps
  rw [hcommands] at hentry
  have hhandles : u.commands.handles c = (u.commands.entryFor c).isSome := Bool.false_or _
  rw [executeOne_eq, run_bind_ok hprepare, hhandles, Registry.turn]
  unfold settle
  cases hfound : u.commands.entryFor c with
  | none =>
    rw [hfound] at hentry
    exact ⟨u₁, hu₁, hreports.went, run_bind_error (run_dispatch_unknown hentry) _⟩
  | some e =>
    rw [hfound] at hentry
    -- The call is announced, made and recorded; whether it asked to exit is remembered.
    have hdispatch : (Dispatch.dispatch (runNested maxNesting) setInput c).run u₁ = _ :=
      run_dispatch hentry
    have hannounced : u₁.OnlyReports (u₁.after (Dispatch.announce c e)) :=
      ⟨_, fun e he => isReport_of_mem_reports he, Dispatch.after_announce c e u₁⟩
    have hu₂ := h.onlyReports hu₁ hannounced
    obtain ⟨value, u₃, hcall, halone, hu₃⟩ := h.returns _ hu₂ c hc e
      (by rw [hannounced.went.commands, hcommands]; exact hfound)
    obtain ⟨u₄, hrecord, hu₄⟩ := h.records u₃ hu₃ c hc
    have hcalled : World.Went _ (Dispatch.callStep e c.fields.tail) u₃ :=
      { steps :=
          Dispatch.steps_callHandler (books_runNested maxNesting) (h.loaded _ hu₂) hcall halone.entries
        history := by
          rw [Dispatch.filterMap_entry?_callStep]
          exact halone.history
        name := by rw [halone.session]
        line := by rw [halone.session]
        commands := halone.commands }
    have hwent : u.Went (Dispatch.callStep e c.fields.tail ++ [.recorded c.text]) u₄ :=
      hreports.went.trans (hannounced.went.trans (hcalled.trans (went_record hrecord)))
    have hdone := hdispatch.trans ((run_bind_ok hcall _).trans (run_bind_ok hrecord fun _ => pure value))
    rw [run_bind_ok hdone]
    cases value.isTrue with
    | false => exact ⟨u₄, hu₄, hwent, rfl⟩
    | true =>
      have hasked : u.Went _ { u₄ with session := { u₄.session with exitRequested := true } } :=
        ⟨hwent.steps, hwent.history, hwent.name, hwent.line, hwent.commands⟩
      exact ⟨_, h.exits u₄ hu₄, hasked, rfl⟩

/-- **Executing some of the commands** is a round of these. -/
theorem run_executeAll {batch : List Command} (hbatch : ∀ c ∈ batch, c ∈ cs)
    (hwritten : ∀ c ∈ batch, Written c) {u : World} (hu : I u) (hclosed : u.commands.NoDangling) :
    I (u.after (executeAll (runNested maxNesting) batch)) ∧
      u.Went (u.commands.round batch) (u.after (executeAll (runNested maxNesting) batch)) ∧
      u.outcome (executeAll (runNested maxNesting) batch) = u.commands.roundEnd batch := by
  induction batch generalizing u with
  | nil => exact ⟨hu, .refl u, rfl⟩
  | cons c rest ih =>
    have hrest := fun c hc => hbatch c (List.mem_cons_of_mem _ hc)
    have hwrittenRest := fun c hc => hwritten c (List.mem_cons_of_mem _ hc)
    cases hwritten c List.mem_cons_self with
    | @forHost raw _ =>
      -- A command for the host is passed over, without any step.
      have hhandled : u.commands.handles (.ofSystem raw) = true := rfl
      have hturn : u.commands.turn (.ofSystem raw) = [] := rfl
      rw [executeAll_of_skipped rfl, Registry.round_cons_of_handled hhandled, hturn,
        Registry.roundEnd_cons_of_handled hhandled]
      exact ih hrest hwrittenRest hu hclosed
    | internal name vs ps =>
      obtain ⟨v, hv, hwent, hrun⟩ := run_executeOne h (hbatch _ List.mem_cons_self) hu hclosed
      rw [executeAll_of_kept rfl]
      cases hhandled : u.commands.handles (.internal name vs ps) with
      | false =>
        have hturn : u.commands.turn (.internal name vs ps) = [] := by
          have hnone : u.commands.entryFor (.internal name vs ps) = none :=
            Option.isNone_iff_eq_none.mp (Option.isSome_eq_false_iff.mp hhandled)
          rw [Registry.turn, hnone]
        rw [hhandled, if_neg Bool.false_ne_true] at hrun
        rw [hturn] at hwent
        rw [Registry.round_cons_of_unknown hhandled, Registry.roundEnd_cons_of_unknown hhandled,
          after_of_error (run_bind_error hrun _), outcome_of_error (run_bind_error hrun _)]
        exact ⟨hv, hwent, rfl⟩
      | true =>
        rw [hhandled, if_pos rfl] at hrun
        obtain ⟨hI, hround, hend⟩ := ih hrest hwrittenRest hv (by rw [hwent.commands]; exact hclosed)
        rw [hwent.commands] at hround hend
        rw [Registry.round_cons_of_handled hhandled, Registry.roundEnd_cons_of_handled hhandled,
          after_bind_ok hrun, outcome_bind_ok hrun]
        exact ⟨hI, hwent.trans hround, hend⟩

end

/-! ## Executing again -/

/-- The commands of a session are read from lines, so they are written in lines after another one was
taken. -/
theorem written_after_setInput {w₀ w : World} {line : String}
    (hbefore : ∀ c ∈ w₀.session.commands.getD [], Written c)
    (hinput : (setInput line).run w₀ = .ok () w) : ∀ c ∈ w.session.commands.getD [], Written c := by
  cases hline : Line.isBlank line with
  | true =>
    rw [setInput_of_isBlank hline] at hinput
    cases hinput
    exact hbefore
  | false =>
    -- A reading that ended with a fault would have been that of the line.
    obtain ⟨cs, w₁, hparse⟩ : ∃ cs w₁, (parse line).run (taking w₀ line) = .ok cs w₁ := by
      cases hparse : (parse line).run (taking w₀ line) with
      | ok cs w₁ => exact ⟨cs, w₁, rfl⟩
      | error f w₁ => exact nomatch (run_setInput_of_unread hline hparse).symm.trans hinput
    have hbatch : w₀.batch line = .ok cs := by
      rw [World.batch, if_neg (Bool.eq_false_iff.mp hline)]
      exact outcome_of_ok hparse
    have hcommands := commands_after_setInput hbatch
    rw [after_of_ok hinput] at hcommands
    rw [hcommands]
    exact gives_parse line _ _ _ hparse

section

variable {I : World → Prop} {r : Registry} {cs : List Command} (h : Undisturbed I cs)
  (hwritten : ∀ c ∈ cs, Written c) (hclosed : r.NoDangling)

include h hwritten hclosed

/-- **One execution** of the line of a session is one round. -/
theorem went_execute {u : World} (hu : I u) (hr : u.commands = r) (hcs : u.session.commands.getD [] = cs) :
    I (u.after execute) ∧ u.Went (r.round cs) (u.after execute) ∧ u.outcome execute = r.roundEnd cs := by
  subst hr hcs
  have hall := run_executeAll h (fun c hc => hc) hwritten hu hclosed
  unfold World.after World.outcome execute at *
  rw [run_executeWith]
  exact hall

/-- **Several executions** are as many rounds. -/
theorem went_executions (k : Nat) {u : World} (hu : I u) (hr : u.commands = r)
    (hcs : u.session.commands.getD [] = cs) :
    I (u.afterCalls (List.replicate k .execute)) ∧
      u.Went (List.replicate k (r.round cs)).flatten (u.afterCalls (List.replicate k .execute)) := by
  induction k generalizing u with
  | zero => exact ⟨hu, .refl u⟩
  | succ k ih =>
    obtain ⟨hI, hround, -⟩ := went_execute h hwritten hclosed hu hr hcs
    obtain ⟨hI', hrest⟩ := ih hI (hround.commands.trans hr) (by rw [hround.line]; exact hcs)
    rw [List.replicate_succ, List.replicate_succ, List.flatten_cons, afterCalls_cons]
    exact ⟨hI', hround.trans hrest⟩

end

/-- **Executing a line again and again.** A session read a line. If no alias dangles and nothing disturbs the
execution of its commands, then however often it is executed, each execution does the same: it calls the
commands that are known, up to the first unknown one, records each, and ends without a fault or, if there is
an unknown one, by missing it. No program is probed or run and no module is imported; the line of the session
and the commands of the shell stay the same. -/
theorem executions_repeat {I : World → Prop} {line : String} {w₀ w : World}
    (hbefore : ∀ c ∈ w₀.session.commands.getD [], Written c)
    (hinput : (setInput line).run w₀ = .ok () w) (hclosed : w.commands.NoDangling)
    (hundisturbed : Undisturbed I (w.session.commands.getD [])) (hw : I w) (k : Nat) :
    let cs := w.session.commands.getD []
    let round := w.commands.round cs
    w.Went (List.replicate k round).flatten (w.afterCalls (List.replicate k .execute)) ∧
      (∀ i < k, (w.afterCalls (List.replicate i .execute)).outcome execute = w.commands.roundEnd cs) ∧
      (∀ e ∈ round,
        (∃ entry arguments, e = .called entry arguments) ∨ ∃ entry, e = .recorded entry) ∧
      ((∀ c ∈ cs, w.commands.handles c = true) → w.commands.roundEnd cs = .ok ()) := by
  intro cs round
  have hwritten := written_after_setInput hbefore hinput
  refine ⟨(went_executions hundisturbed hwritten hclosed k hw rfl rfl).2, fun i _ => ?_,
    fun e => Registry.called_or_recorded_of_mem_round, Registry.roundEnd_of_handled⟩
  obtain ⟨hI, hwent⟩ := went_executions hundisturbed hwritten hclosed i hw rfl rfl
  exact (went_execute hundisturbed hwritten hclosed hI hwent.commands (by rw [hwent.line])).2.2

/-- **A line without commands for the host** is only read, where all is loaded. -/
theorem run_setInput_of_internal {w : World} {line : String} {cs : List Command} (hw : w.AllLoaded)
    (hline : Line.isBlank line = false) (hparse : (taking w line).outcome (parse line) = .ok cs)
    (hinternal : ∀ c ∈ cs, c.isSystem = false) :
    ∃ u, (taking w line).OnlyReports u ∧ (setInput line).run w = .ok () (keeping u cs) := by
  obtain ⟨u, hrun⟩ := exists_run_of_outcome hparse
  have hreports : (taking w line).OnlyReports u :=
    (within_parse logging_quieted (Loader.quieted_loadAll false) line).of_ok hrun hw
  have hnone (v : World) : (runSystemCommands cs).run v = .ok () v := by
    clear hparse hrun
    induction cs with
    | nil => rfl
    | cons c cs ih =>
      have hc : ¬c.isSystem = true := Bool.eq_false_iff.mp (hinternal c List.mem_cons_self)
      rw [runSystemCommands, if_neg hc]
      exact ih fun c hc => hinternal c (List.mem_cons_of_mem _ hc)
  refine ⟨u, hreports, ?_⟩
  exact (run_setInput_of_read hline hrun).trans (hnone _)

/-- A world in which one command is registered and all names are internal. -/
def greetingWorld : World := { sampleWorld with classifier := .everything }

/-- The worlds with these commands, in which no modules are looked for and the history is kept in memory. -/
structure Greeting (u : World) : Prop where
  /-- The commands are the same. -/
  commands : u.commands = greetingWorld.commands
  /-- No modules are looked for. -/
  directories : u.loader.directories = []
  /-- The history is kept in memory. -/
  history : ∃ es, u.history = .memory es

/-- The commands of a line that greets twice, with an unknown command in between. -/
def greetings : List Command :=
  [.internal "greet" ["Ada"] [], .internal "nope" [] [], .internal "greet" [] []]

/-- Nothing disturbs the greeting: its script only prints. -/
theorem undisturbed_greeting : Undisturbed Greeting greetings where
  loaded u hu := allLoaded_of_directories hu.directories
  reported u es hu _ := ⟨hu.commands, hu.directories, hu.history⟩
  returns u hu c hc e he := by
    -- The one entry that is called is the one there is.
    obtain rfl : e = sampleEntry := by
      rw [hu.commands] at he
      obtain rfl | rfl | rfl : c = .internal "greet" ["Ada"] [] ∨ c = .internal "nope" [] [] ∨
          c = .internal "greet" [] [] := by simpa [greetings] using hc
      · cases he
        rfl
      · cases he
      · cases he
        rfl
    let u₁ := u.emitted [.called "greet" (c.fields.tail.map Argument.text)]
    have hentries : (u₁.emitted [.out ("Hello!" ++ "\n")]).entries = u.entries := by
      unfold World.entries
      rw [trace_emitted, trace_emitted, List.filterMap_append, List.filterMap_append]
      exact (List.append_nil _).trans (List.append_nil _)
    exact ⟨.null, u₁.emitted [.out ("Hello!" ++ "\n")], rfl,
      ⟨rfl, rfl, appended_nil rfl rfl rfl, hentries⟩, ⟨hu.commands, hu.directories, hu.history⟩⟩
  records u hu c _ := by
    obtain ⟨es, hes⟩ := hu.history
    exact ⟨_, run_record_of_memory hes c.text, ⟨hu.commands, hu.directories, _, rfl⟩⟩
  exits u hu := ⟨hu.commands, hu.directories, hu.history⟩

/-- Two executions greet twice, and each of them misses the unknown command behind. -/
theorem executions_repeat_sample :
    let w := greetingWorld.after (setInput "greet Ada; nope; greet")
    let round := [.called "greet" [.text "Ada"], .recorded "greet Ada"]
    w.Went (List.replicate 2 round).flatten (w.afterCalls (List.replicate 2 .execute)) ∧
      ∀ i < 2, (w.afterCalls (List.replicate i .execute)).outcome execute
        = .error (.unknownCommand (some "nope")) := by
  intro w round
  have hparse : (taking greetingWorld "greet Ada; nope; greet").outcome (parse "greet Ada; nope; greet")
      = .ok greetings := by rfl
  obtain ⟨u, ⟨es, -, rfl⟩, hinput⟩ := run_setInput_of_internal (w := greetingWorld)
    (allLoaded_of_directories rfl) (by decide) hparse (by decide)
  have hw : w = keeping ((taking greetingWorld "greet Ada; nope; greet").emitted es) greetings :=
    after_of_ok hinput
  have hround : greetingWorld.commands.round greetings = round := by decide +kernel
  have hend : greetingWorld.commands.roundEnd greetings = .error (.unknownCommand (some "nope")) := by rfl
  obtain ⟨hwent, houtcomes, -, -⟩ := executions_repeat (fun c hc => absurd hc List.not_mem_nil) hinput
    ready_sampleWorld.commands.closed undisturbed_greeting ⟨rfl, rfl, [], rfl⟩ 2
  rw [hw]
  exact ⟨hround ▸ hwent, fun i hi => (houtcomes i hi).trans hend⟩

end Session

end CommandShell
