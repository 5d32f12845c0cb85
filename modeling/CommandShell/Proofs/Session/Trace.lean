import CommandShell.Proofs.Session.Acts
import CommandShell.Proofs.Session.Steps

/-! # The trace of a line

A line is run in two phases. First its commands for the host are run, one after the other
(`ends_runSystemCommands`). If none of them ended with a fault, its internal commands are called. What
that comes to is written down as a function of the commands and the world (`callOne`, `callAll`): for each
command the module of its name is loaded, the registry of the session is asked for its entry, the handler
of the entry is given the arguments and does and gives what it does (`reply`), and a call that gives a
value is recorded. A fault ends the run where it arises. Running the line does just that
(`run_trace`). -/

namespace CommandShell.Session

open World

/-! ## Commands for the host -/

/-- **The commands for the host** do what their trace says, in the order of the line. -/
theorem ends_runSystemCommands {w : World} (h : w.Ready) {cs : List Command}
    (hcs : ∀ c ∈ cs, Written c) :
    ∃ w', Shell.Ends (runSystemCommands cs) w
        (hostTrace w.host w.probeCommand (cs.filterMap Command.system)).2 w' ∧
      w.Did (hostTrace w.host w.probeCommand (cs.filterMap Command.system)).1 w' ∧
      w'.session = w.session := by
  induction cs generalizing w with
  | nil => exact ⟨w, rfl, h.did_nil, rfl⟩
  | cons c cs ih =>
    have hrest := fun c hc => hcs c (List.mem_cons_of_mem _ hc)
    -- Internal commands are passed over; a fault of a text for the host ends the run.
    cases hcs c List.mem_cons_self with
    | internal name vs ps => exact ih h hrest
    | @forHost raw hraw =>
      obtain ⟨w₁, hends, hdid, hsession⟩ := Dispatch.ends_runSystem h hraw
      have hsystem : (Command.ofSystem raw :: cs).filterMap Command.system
          = raw :: cs.filterMap Command.system := rfl
      have hstep (f? : Option Fault) (w' : World) :
          Shell.Ends (runSystemCommands (.ofSystem raw :: cs)) w f? w'
            ↔ Shell.Ends (Dispatch.runSystem [some raw] >>= fun _ => runSystemCommands cs) w f? w' :=
        Iff.rfl
      rw [hsystem, hostTrace]
      simp only [hstep]
      cases hhost : hostStep w.host w.probeCommand raw with
      | mk es f? =>
        rw [hhost] at hends hdid
        cases f? with
        | some f => exact ⟨w₁, Shell.run_bind_error hends _, hdid, hsession⟩
        | none =>
          obtain ⟨w₂, hends₂, hdid₂, hsession₂⟩ := ih hdid.ready hrest
          rw [hdid.host, hdid.probeCommand] at hends₂ hdid₂
          refine ⟨w₂, ?_, hdid.trans hdid₂, hsession₂.trans hsession⟩
          unfold Shell.Ends at hends hends₂ ⊢
          rw [Shell.run_bind_ok hends]
          exact hends₂

/-! ## Internal commands -/

/-- What a handler that only prints does when it is called in a world, and what it gives. A handler of
actions is called, prints its lines and ends as they are followed. A builtin command shows in what it
brings to the trace. -/
def reply (e : Entry) (arguments : List String) (w : World) : List Event × Except Fault Json :=
  match e.handler with
  | .script body => (.called e.name (given e arguments) :: Action.printed body, Action.ending body)
  | .builtin b origin => (w.brought (b.call origin arguments), w.outcome (b.call origin arguments))

/-- The world in which a command that gave a value is recorded. The session remembers whether the value
asks to exit. -/
def settled (w : World) (c : Command) (value : Json) : World :=
  let v := w.after (record c.text)
  { v with session := { v.session with
      exitRequested := v.session.exitRequested || value.isTrue } }

/-- What calling commands comes to. -/
structure Calls where
  /-- What is done, in order. -/
  events : List Event
  /-- The fault that ends the calls, if one does. -/
  fault? : Option Fault
  /-- The world afterwards. -/
  world : World

/-- What calling an internal command comes to once the module of its name is loaded. The registry of the
session has an entry for the command or has none. The handler of the entry is given the arguments and
replies, and if it gives a value, the command is recorded. -/
def callLoaded (c : Command) (w : World) : Calls :=
  match w.commands.entryFor c with
  | none => ⟨[], some (.unknownCommand c.name), w⟩
  | some e =>
    let v := w.after (Dispatch.announce c e)
    match reply e c.fields.tail v with
    | (es, .error f) => ⟨es, some f, v.emitted es⟩
    | (es, .ok value) => ⟨es ++ [.recorded c.text], none, settled (v.emitted es) c value⟩

/-- What calling one internal command comes to. The module of its name is loaded first, unless the
directories cannot be searched for it. -/
def callOne (c : Command) (w : World) : Calls :=
  match c.name.bind (Loader.searchFault w) with
  | some f => ⟨[], some f, w.after (prepare c)⟩
  | none => callLoaded c (w.after (prepare c))

/-- What calling the internal ones of some commands comes to, one after the other up to the first
fault. -/
def callAll : List Command → World → Calls
  | [], w => ⟨[], none, w⟩
  | c :: cs, w =>
    if c.isInternal then
      match callOne c w with
      | ⟨es, some f, u⟩ => ⟨es, some f, u⟩
      | ⟨es, none, u⟩ =>
        let rest := callAll cs u
        ⟨es ++ rest.events, rest.fault?, rest.world⟩
    else callAll cs w

/-- What the session remembers of its line is no act. -/
theorem did_session {w : World} (h : w.Ready) (session : Session) : w.Did [] { w with session } :=
  ⟨(List.append_nil _).symm, recorded_nil rfl rfl rfl, rfl, rfl, rfl,
    ⟨h.commands, h.modules, h.records⟩⟩

/-- **A quiet handler** does and gives what its reply says, by calls and lines only. -/
theorem callHandler_of_isQuiet {e : Entry} (h : e.handler.isQuiet = true)
    (rerun reread : String → Shell Unit) (arguments : List String) (w : World) :
    w.after (Dispatch.callHandler rerun reread e arguments) = w.emitted (reply e arguments w).1 ∧
      w.outcome (Dispatch.callHandler rerun reread e arguments) = (reply e arguments w).2 ∧
      ∀ ev ∈ (reply e arguments w).1, ev.isCall = true := by
  unfold reply
  cases hhandler : e.handler with
  | builtin b origin =>
    rw [hhandler] at h
    obtain ⟨hafter, hcalls⟩ := Builtin.after_call_of_onlyPrints h origin arguments w
    rw [callHandler_of_builtin hhandler]
    exact ⟨hafter, rfl, hcalls⟩
  | script body =>
    rw [hhandler] at h
    have hemit := Shell.run_emit (.called e.name (given e arguments)) w
    obtain ⟨hafter, houtcome⟩ := Dispatch.runScript_of_onlyPrint h rerun reread e.passContext
      (w.emitted [.called e.name (given e arguments)])
    rw [callHandler_of_script hhandler, after_bind_ok hemit, outcome_bind_ok hemit, hafter,
      emitted_emitted]
    refine ⟨rfl, houtcome, fun ev hev => ?_⟩
    obtain rfl | hprinted := List.mem_cons.mp hev
    · rfl
    · exact Dispatch.isCall_of_mem_printed hprinted

/-- Calls and lines are acts, and add nothing to the history. -/
theorem did_calls {w : World} (h : w.Ready) {es : List Event} (hes : ∀ e ∈ es, e.isCall = true) :
    w.Did es (w.emitted es) := by
  refine h.did_emitted fun e he => ?_
  have hcall := hes e he
  cases e with
  | called entry arguments => exact ⟨rfl, rfl⟩
  | out text => exact ⟨rfl, rfl⟩
  | _ => cases hcall

/-- A command that gave a value is recorded, which is one act. -/
theorem run_settled {w : World} (h : w.Ready) (c : Command) (value : Json) :
    (record c.text).run w = .ok () (w.after (record c.text)) ∧
      w.Did [.recorded c.text] (settled w c value) := by
  obtain ⟨v, hrecord, hdid, -⟩ := run_record h c.text
  unfold settled
  rw [after_of_ok hrecord]
  exact ⟨hrecord, hdid.trans (did_session hdid.ready _)⟩

/-- **Preparing a command** loads the module of its name, and fails only by the search for it. -/
theorem outcome_prepare {w : World} (h : w.Ready) (name : String) (vs ps : List String) :
    w.outcome (prepare (.internal name vs ps)) = match Loader.searchFault w name with
      | some f => .error f
      | none => .ok () := by
  have hload := Loader.outcome_load h name
  have hprepare : prepare (.internal name vs ps) = Loader.load name >>= fun _ =>
      Shell.log .debug .session (name ++ ": arguments " ++ kindsText (.internal name vs ps)) := rfl
  rw [hprepare]
  cases hfault : Loader.searchFault w name with
  | some f =>
    rw [hfault] at hload
    exact outcome_of_error (Shell.run_bind_error (run_of_outcome_error hload) _)
  | none =>
    rw [hfault] at hload
    rw [outcome_bind_ok (run_of_outcome_ok hload)]
    exact outcome_of_ok (Shell.run_log _ _ _ _)

/-- Preparing a command does nothing but to load modules. -/
theorem did_prepare {w : World} (h : w.Ready) (name : String) (vs ps : List String) :
    w.Did [] (w.after (prepare (.internal name vs ps))) := by
  have hsearching : Searching (prepare (.internal name vs ps)) :=
    (Searching.load name).bind fun _ => .log _ _ _
  obtain ⟨hready, hstill, -⟩ := hsearching w h
  exact hstill.did hready

/-- The entry that a command calls in a ready world is quiet. -/
theorem isQuiet_of_entryFor {w : World} (h : w.Ready) {c : Command} {e : Entry}
    (he : w.commands.entryFor c = some e) : e.handler.isQuiet = true := by
  unfold Registry.entryFor at he
  split at he
  · cases he
  · split at he
    · cases he
    · rename_i name _ _
      cases hfind : w.commands.find name with
      | error f =>
        rw [hfind] at he
        cases he
      | ok found =>
        rw [hfind] at he
        cases he
        exact h.commands.quiet_of_find hfind

/-- Announcing a call is no act. -/
theorem did_announce {w : World} (h : w.Ready) (c : Command) (e : Entry) :
    w.Did [] (w.after (Dispatch.announce c e)) := by
  rw [Dispatch.after_announce]
  exact did_log h _ _ _

/-- **A command that is prepared** does and ends as calling it comes to. -/
theorem ends_settle {w : World} (h : w.Ready) (rerun : String → Shell Unit) (name : String)
    (vs ps : List String) :
    let c := Command.internal name vs ps
    Shell.Ends (settle rerun c) w (callLoaded c w).fault? (callLoaded c w).world ∧
      w.Did (callLoaded c w).events (callLoaded c w).world := by
  intro c
  have hentry : (Dispatch.entryOf c).run w = .ok (w.commands.entryFor c) w :=
    run_entryOf_of_noDangling h.commands.closed name vs ps
  unfold Shell.Ends callLoaded
  cases hfound : w.commands.entryFor c with
  | none =>
    rw [hfound] at hentry
    exact ⟨Shell.run_bind_error (run_dispatch_unknown hentry) _, h.did_nil⟩
  | some e =>
    rw [hfound] at hentry
    have hannounced := did_announce h c e
    have hrun : (Dispatch.dispatch rerun setInput c).run w = _ := run_dispatch hentry
    dsimp only
    set v := w.after (Dispatch.announce c e)
    obtain ⟨hafter, houtcome, hcalls⟩ :=
      callHandler_of_isQuiet (isQuiet_of_entryFor h hfound) rerun setInput c.fields.tail v
    have hdid := hannounced.trans (did_calls hannounced.ready hcalls)
    -- A handler that fails ends the run before anything is recorded.
    cases hreply : reply e c.fields.tail v with
    | mk es r =>
      rw [hreply] at hafter houtcome hdid
      cases r with
      | error f =>
        have hcall := run_of_outcome_error houtcome
        rw [hafter] at hcall
        exact ⟨Shell.run_bind_error (hrun.trans (Shell.run_bind_error hcall _)) _, hdid⟩
      | ok value =>
        have hcall := run_of_outcome_ok houtcome
        rw [hafter] at hcall
        obtain ⟨hrecord, hsettled⟩ := run_settled hdid.ready c value
        have hreturn := hrun.trans
          ((Shell.run_bind_ok hcall _).trans (Shell.run_bind_ok hrecord fun _ => pure value))
        exact ⟨run_settle_of_ok hreturn, hdid.trans hsettled⟩

/-- **One internal command** does and ends as calling it comes to. -/
theorem ends_executeOne {w : World} (h : w.Ready) (rerun : String → Shell Unit) (name : String)
    (vs ps : List String) :
    let c := Command.internal name vs ps
    Shell.Ends (executeOne rerun c) w (callOne c w).fault? (callOne c w).world ∧
      w.Did (callOne c w).events (callOne c w).world := by
  intro c
  have hprepared : w.outcome (prepare c) = _ := outcome_prepare h name vs ps
  have hdid : w.Did [] (w.after (prepare c)) := did_prepare h name vs ps
  have hname : c.name.bind (Loader.searchFault w) = Loader.searchFault w name := rfl
  unfold callOne
  rw [executeOne_eq, hname]
  cases hfault : Loader.searchFault w name with
  | some f =>
    rw [hfault] at hprepared
    exact ⟨Shell.run_bind_error (run_of_outcome_error hprepared) _, hdid⟩
  | none =>
    rw [hfault] at hprepared
    obtain ⟨hends, hsettled⟩ := ends_settle hdid.ready rerun name vs ps
    exact ⟨(Shell.run_bind_ok (run_of_outcome_ok hprepared) _).trans hends, hdid.trans hsettled⟩

/-- **The internal commands** do and end as calling them comes to. -/
theorem ends_executeAll {w : World} (h : w.Ready) (rerun : String → Shell Unit) {cs : List Command}
    (hcs : ∀ c ∈ cs, Written c) :
    Shell.Ends (executeAll rerun cs) w (callAll cs w).fault? (callAll cs w).world ∧
      w.Did (callAll cs w).events (callAll cs w).world := by
  -- Each command starts in the world that the one before left, so the world is general.
  induction cs generalizing w with
  | nil => exact ⟨rfl, h.did_nil⟩
  | cons c cs ih =>
    have hrest := fun c hc => hcs c (List.mem_cons_of_mem _ hc)
    cases hcs c List.mem_cons_self with
    | forHost hraw =>
      rw [executeAll_of_skipped rfl]
      exact ih h hrest
    | internal name vs ps =>
      have hinternal : (Command.internal name vs ps).isInternal = true := rfl
      obtain ⟨hends, hdid⟩ := ends_executeOne h rerun name vs ps
      rw [executeAll_of_kept rfl, callAll, if_pos hinternal]
      cases hone : callOne (.internal name vs ps) w with
      | mk es f? u =>
        rw [hone] at hends hdid
        cases f? with
        | some f => exact ⟨Shell.run_bind_error hends _, hdid⟩
        | none =>
          obtain ⟨hends', hdid'⟩ := ih hdid.ready hrest
          exact ⟨(Shell.run_bind_ok hends _).trans hends', hdid.trans hdid'⟩

/-! ## The whole line -/

/-- **The trace of a line.** Unless the directories of the loader cannot be searched while it is read,
a line that is not blank is read to some commands. Those for the host are run first, in their order. A
fault among them ends the run, with nothing done but what their trace says up to there. Otherwise the
internal commands are called after them, in their order, and the run does and ends as that comes to. -/
theorem run_trace {w : World} (h : w.Ready) {line : String} (hline : Line.isBlank line = false) :
    (∃ f w₁ u v, (parse line).run (taking w line) = .error f w₁ ∧
      (taking w line).Still u ∧ Loader.index.run u = .error f v ∧
      Shell.Ends (run line) w (some f) w₁ ∧ w.Did [] w₁) ∨
    ∃ cs w₁, (parse line).run (taking w line) = .ok cs w₁ ∧
      let v := w.after (setInput line)
      match hostTrace w.host w.probeCommand (cs.filterMap Command.system) with
      | (es, some f) => Shell.Ends (run line) w (some f) v ∧ w.Did es v
      | (es, none) =>
        let calls := callAll cs v
        w.Did es v ∧ Shell.Ends (run line) w calls.fault? calls.world ∧
          w.Did (es ++ calls.events) calls.world := by
  have hblank : ¬Line.isBlank line = true := Bool.eq_false_iff.mp hline
  have htaken : w.Did [] (taking w line) := did_session h _
  -- Reading the line does nothing, whether it succeeds or not.
  obtain ⟨hready, hstill, hsearch⟩ := searching_parse line (taking w line) htaken.ready
  have hrun : run line = setInput line >>= fun _ => executeWith (runNested maxNesting) := by
    rw [run, runNested, runWith, if_neg hblank]
  unfold Shell.Ends
  cases hparse : (parse line).run (taking w line) with
  | error f w₁ =>
    rw [after_of_error hparse] at hready hstill
    obtain ⟨u, v, hu, hindex⟩ := hsearch f w₁ hparse
    have hinput := run_setInput_of_unread hline hparse
    refine .inl ⟨f, w₁, u, v, rfl, hu, hindex, ?_, htaken.trans (hstill.did hready)⟩
    rw [hrun]
    exact Shell.run_bind_error hinput _
  | ok cs w₁ =>
    rw [after_of_ok hparse] at hready hstill
    have hwritten := gives_parse line _ _ _ hparse
    have hread : w.Did [] (keeping w₁ cs) :=
      htaken.trans ((hstill.did hready).trans (did_session hready _))
    obtain ⟨w₂, hends, hdid, hsession⟩ := ends_runSystemCommands hread.ready hwritten
    rw [hread.host, hread.probeCommand] at hends hdid
    have hinput := run_setInput_of_read hline hparse
    refine .inr ⟨cs, w₁, rfl, ?_⟩
    intro v
    cases hhost : hostTrace w.host w.probeCommand (cs.filterMap Command.system) with
    | mk es f? =>
      rw [hhost] at hends hdid
      cases f? with
      | some f =>
        have hv : v = w₂ := after_of_error (hinput.trans hends)
        dsimp only
        rw [hv, hrun]
        exact ⟨Shell.run_bind_error (hinput.trans hends) _, hread.trans hdid⟩
      | none =>
        have hv : v = w₂ := after_of_ok (hinput.trans hends)
        dsimp only
        rw [hv, hrun]
        obtain ⟨hcalled, hcalls⟩ := ends_executeAll hdid.ready (runNested maxNesting) hwritten
        -- Running texts on the host leaves the commands that the session has read.
        have hexecute : (executeWith (runNested maxNesting)).run w₂
            = (executeAll (runNested maxNesting) cs).run w₂ := by
          rw [run_executeWith, hsession]
          rfl
        refine ⟨hread.trans hdid, ?_, (hread.trans hdid).trans hcalls⟩
        exact (Shell.run_bind_ok (hinput.trans hends) _).trans (hexecute.trans hcalled)

/-- A command that prints a line. -/
def sampleEntry : Entry :=
  Declaration.entry ⟨"greet", "Greet someone", none, [], false⟩ (.script [.print "Hello!"])

/-- A world in which that command is registered, and one program is found. -/
def sampleWorld : World :=
  { (default : World) with
    host := ⟨["ls"], {}, ["which"], []⟩
    probeCommand := "which"
    registries := ⟨⟨[(default, ⟨⟨[("greet", sampleEntry)]⟩, {}⟩)]⟩, {}, 1⟩ }

/-- The world of the sample is ready. -/
theorem ready_sampleWorld : sampleWorld.Ready := by
  refine ⟨⟨fun a k h => ?_, fun k e hk => ?_⟩, fun m hm => ?_, fun path hpath => ?_⟩
  · cases h.1
  · obtain hmem := List.mem_singleton.mp (Table.mem_of_get? hk)
    cases hmem
    rfl
  · obtain ⟨d, hd, _⟩ := hm
    exact absurd hd List.not_mem_nil
  · cases hpath

/-- The commands of a line in which someone is greeted and files are listed. -/
def sampleCommands : List Command := [.internal "greet" ["Ada"] [], .ofSystem "ls -l"]

/-- Reading that line and listing the files leaves the registry and the loader of the sample. -/
theorem exists_after_setInput_sample :
    (∃ u, (parse "greet Ada; !ls -l").run (taking sampleWorld "greet Ada; !ls -l")
      = .ok sampleCommands u) ∧
    ∃ es s, sampleWorld.after (setInput "greet Ada; !ls -l")
      = { sampleWorld with trace := es, session := s, history := .memory ["ls -l"] } := by
  obtain ⟨es, hparse⟩ : ∃ es, (parse "greet Ada; !ls -l").run (taking sampleWorld "greet Ada; !ls -l")
      = .ok sampleCommands ((taking sampleWorld "greet Ada; !ls -l").emitted es) := ⟨_, rfl⟩
  obtain ⟨es', s, hrun⟩ : ∃ es' s, (runSystemCommands sampleCommands).run
      (keeping ((taking sampleWorld "greet Ada; !ls -l").emitted es) sampleCommands)
        = .ok () { sampleWorld with trace := es', session := s, history := .memory ["ls -l"] } :=
    ⟨_, _, rfl⟩
  exact ⟨⟨_, hparse⟩, es', s, after_of_ok ((run_setInput_of_read (by decide) hparse).trans hrun)⟩

/-- A line that greets someone and lists files: the files are listed first, then the handler is called with
the name, and both commands are recorded. -/
theorem run_trace_sample :
    (sampleWorld.Ready ∧ Line.isBlank "greet Ada; !ls -l" = false) ∧
      ∃ w, Shell.Ends (run "greet Ada; !ls -l") sampleWorld none w ∧
        w.acts = [.probe "which" "ls", .run "ls -l", .recorded "ls -l",
          .called "greet" [.text "Ada"], .out "Hello!\n", .recorded "greet Ada"] ∧
        w.history = .memory ["ls -l", "greet Ada"] := by
  have hblank : Line.isBlank "greet Ada; !ls -l" = false := by decide
  have htext : (Command.internal "greet" ["Ada"] []).text = "greet Ada" := rfl
  refine ⟨⟨ready_sampleWorld, hblank⟩, ?_⟩
  obtain ⟨⟨u, hparse⟩, es, s, hinput⟩ := exists_after_setInput_sample
  obtain ⟨f, w₁, _, _, hfails, -⟩ | ⟨cs, w₁, hread, htrace⟩ := run_trace ready_sampleWorld hblank
  · cases hparse.symm.trans hfails
  · cases hparse.symm.trans hread
    have hhost : hostTrace sampleWorld.host sampleWorld.probeCommand
        (sampleCommands.filterMap Command.system)
          = ([.probe "which" "ls", .run "ls -l", .recorded "ls -l"], none) := rfl
    rw [hinput, hhost] at htrace
    obtain ⟨-, hends, hdid⟩ := htrace
    have hevents : (callAll sampleCommands { sampleWorld with
        trace := es, session := s, history := .memory ["ls -l"] }).events
          = [.called "greet" [.text "Ada"], .out "Hello!\n",
              .recorded (Command.internal "greet" ["Ada"] []).text] := rfl
    rw [hevents, htext] at hdid
    exact ⟨_, hends, hdid.acts, hdid.history⟩

end CommandShell.Session
