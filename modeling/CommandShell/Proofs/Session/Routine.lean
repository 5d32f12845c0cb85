import CommandShell.Proofs.Session.Trace
import CommandShell.Proofs.Settings.Routine
import CommandShell.Proofs.Shell.Effects

/-! # Sessions are routine but for five things

What a session does beside routine actions is to run commands on the host, to record entries, to take a
line, to keep its commands (`Session.Input`) and to remember that it is to exit (`Session.Own`). So whatever
is known of routine actions and of these five is known of running lines, however deep within each other
(`Session.routine_runNested`): a line ends alike in worlds that differ in trace and line only
(`Session.carries_run`), and in an ordinary world with an ordinary fault at most
(`Session.staysOrdinary_run`). -/

namespace CommandShell

open Shell

/-- What a session does itself to read a line, beside routine actions. -/
inductive Session.Input : Shell Unit → Prop
  | ran (command : String) : Input (Dispatch.runOnHost command)
  | record (entry : String) : Input (record entry)
  | take (line : String) : Input (modify fun w => taking w line)
  | keep (cs : List Command) : Input (modify fun w => keeping w cs)

/-- What a session does itself to run a line, beside routine actions. -/
inductive Session.Own : Shell Unit → Prop
  | input {a : Shell Unit} (h : Input a) : Own a
  | exit : Own (modify fun w => { w with session := { w.session with exitRequested := true } })

variable {K : Prop} {Own : Shell Unit → Prop}

/-! ## The host -/

namespace Host

/-- Probing is routine. -/
theorem routine_probe (name : String) : Routine K Own (probe name) := by
  refine .look (fun _ _ => rfl) fun w _ => .bind (.tell rfl) fun _ => ?_
  split
  · exact .throw fun _ => rfl
  · split
    · exact .bind (.log _ _ _) fun _ => .pure _
    · exact .bind (.log _ _ _) fun _ => .pure _

end Host

namespace World

/-- What is logged when a command fails on the host. -/
def failure (w : World) (command : String) : List Event :=
  if w.host.returncode command ≠ 0 then
    w.reports .debug .dispatcher
      (Text.quoted command ++ " exited with " ++ toString (w.host.returncode command))
  else []

/-- What running a command on the host brings to the outside. -/
def ran (w : World) (command : String) : List Event :=
  w.reports .debug .process ("Running: " ++ command) ++ [.run command] ++ w.failure command

/-- Running a command on the host records no entry. -/
theorem entry?_of_mem_ran {w : World} {command : String} {e : Event} (h : e ∈ w.ran command) :
    e.entry? = none := by
  rcases List.mem_append.mp h with h | h
  · rcases List.mem_append.mp h with h | h
    · exact Event.entry?_of_isReport (isReport_of_mem_reports h)
    · rw [List.mem_singleton.mp h]
      rfl
  · unfold failure at h
    split at h
    · exact Event.entry?_of_isReport (isReport_of_mem_reports h)
    · exact absurd h List.not_mem_nil

end World

namespace Dispatch

/-- **A command on the host** only brings events to the outside. -/
theorem run_runOnHost (command : String) (w : World) :
    (runOnHost command).run w = .ok () (w.emitted (w.ran command)) := by
  have hrun : (Host.run command).run w = .ok (w.host.returncode command)
      (w.emitted (w.reports .debug .process ("Running: " ++ command) ++ [.run command])) := by
    unfold Host.run
    rw [run_bind_ok (run_log _ _ _ w), run_bind_ok (run_emit _ _), World.emitted_emitted]
    rfl
  unfold runOnHost World.ran World.failure
  rw [run_bind_ok hrun]
  split
  · rw [run_log, World.emitted_emitted]
    rfl
  · rw [List.append_nil]
    rfl

/-- Looking for a command on the host is routine. -/
theorem routine_isSystemCommand (name : String) : Routine K Own (isSystemCommand name) := by
  unfold isSystemCommand
  split
  · exact .pure false
  · exact Host.routine_probe name

/-- **Running commands on the host** is routine but for running each and for the entries that are
recorded. -/
theorem routine_runSystem (hown : ∀ a, Session.Input a → Own a) (commands : List (Option String)) :
    Routine K Own (runSystem commands) := by
  induction commands with
  | nil => exact .pure _
  | cons command rest ih =>
    cases command with
    | none => exact ih
    | some command =>
      cases hblank : Line.isBlank command with
      | true =>
        rw [runSystem_of_isBlank hblank]
        exact ih
      | false =>
        rw [runSystem_cons hblank]
        refine .bind (routine_isSystemCommand _) fun found => ?_
        split
        · exact .bind (.own (hown _ (.ran command))) fun _ =>
            .bind (.own (hown _ (.record command))) fun _ => ih
        · exact .throw fun _ => rfl

end Dispatch

namespace Session

/-! ## Reading -/

/-- Asking whether a name is registered is routine. -/
theorem routine_isRegistered (name : String) : Routine K Own (isRegistered name) :=
  .look (fun _ _ => rfl) fun _ _ => routine_lookup_bind fun _ _ => .pure _

/-- Asking whether a name is internal is routine. -/
theorem routine_isInternal (name : String) : Routine K Own (isInternal name) := by
  refine .bind (routine_isRegistered name) fun registered => ?_
  split
  · exact .pure true
  · refine .bind Loader.routine_available fun available => ?_
    split
    · exact .pure true
    · exact .bind (Loader.routine_loadAll false) fun _ => routine_isRegistered name

/-- Asking whoever decides it is routine. -/
theorem routine_classify (name : String) : Routine K Own (classify name) := by
  refine .look (fun _ _ => rfl) fun w _ => ?_
  split
  · exact routine_isInternal name
  · exact .pure true
  · exact .pure _

/-- Reading one segment is routine. -/
theorem routine_readSegment (segment : List Char) :
    Routine K Own (Line.readSegment classify segment) := by
  unfold Line.readSegment
  split
  · exact .pure _
  · exact .bind (routine_classify _) fun _ => .pure _
  · exact .pure _

/-- Reading some segments is routine. -/
theorem routine_readSegments (segments : List (List Char)) :
    Routine K Own (Line.readSegments classify segments) := by
  induction segments with
  | nil => exact .pure _
  | cons s ss ih =>
    refine .bind (routine_readSegment s) fun r => ?_
    split
    · exact .pure _
    · refine .bind ih fun rs => ?_
      split
      · exact .pure _
      · exact .pure _

/-- Reading a line is routine. -/
theorem routine_read (line : List Char) : Routine K Own (Line.read classify line) := by
  unfold Line.read
  split
  · exact .pure _
  · exact routine_readSegments _

/-- **Reading a line** is routine. -/
theorem routine_parse (line : String) : Routine K Own (parse line) := by
  refine .bind (.recover (.bind (routine_read _) fun _ => .pure _) fun _ => .pure _) fun reading => ?_
  split
  · exact .bind (.log _ _ _) fun _ => .pure _
  · exact .bind (.log _ _ _) fun _ => .pure _

/-- Running commands on the host is routine, if recording them is. -/
theorem routine_runSystemCommands (hown : ∀ a, Input a → Own a) (cs : List Command) :
    Routine K Own (runSystemCommands cs) := by
  induction cs with
  | nil => exact .pure _
  | cons c cs ih =>
    unfold runSystemCommands
    split
    · exact .bind (Dispatch.routine_runSystem hown _) fun _ => ih
    · exact ih

/-- **Giving a session a line** is routine but for what a session does itself to read it. -/
theorem routine_setInput (hown : ∀ a, Input a → Own a) (line : String) :
    Routine K Own (setInput line) := by
  unfold setInput
  split
  · exact .pure _
  · refine .bind (.own (hown _ (.take line))) fun _ => .bind (routine_parse line) fun cs => ?_
    exact .bind (.own (hown _ (.keep cs))) fun _ => routine_runSystemCommands hown cs

end Session

/-! ## Handlers -/

namespace Dispatch

/-- A routine action stays so where it needs the context: the fault for the lack of it is ordinary. -/
theorem routine_needContext {hasContext : Bool} {a : Shell Unit} (part : String)
    (ha : Routine K Own a) : Routine K Own (needContext hasContext part a) := by
  unfold needContext
  split
  · exact ha
  · exact .throw fun _ => rfl

/-- A routine action stays so with the session. -/
theorem routine_withSession {hasContext : Bool} {a : Shell Unit} (ha : Routine K Own a) :
    Routine K Own (withSession hasContext a) := by
  refine routine_needContext _ (.look (fun _ _ => rfl) fun w _ => ?_)
  split
  · exact ha
  · exact .throw fun _ => rfl

/-- **An action of a handler** is routine if running a line is, should it do so. -/
theorem routine_perform (hown : ∀ a, Session.Input a → Own a) {rerun : String → Shell Unit}
    {hasContext : Bool} {action : Action} (haction : K → action.isOrdinary = true)
    (hrerun : ∀ line, action = .run line → Routine K Own (rerun line)) :
    Routine K Own (perform rerun Session.setInput hasContext action) := by
  have hdone {a : Shell Unit} (ha : Routine K Own a) : Routine K Own (perform.done a) :=
    .bind ha fun _ => .pure none
  cases action with
  | unknown name => exact .throw fun _ => rfl
  | raise r => exact .throw haction
  | print text => exact hdone (routine_printLine text)
  | finish value => exact .pure _
  | run line => exact hdone (routine_withSession (hrerun line rfl))
  | setInput line => exact hdone (routine_withSession (Session.routine_setInput hown line))
  | define d script =>
    refine hdone (routine_needContext _ (.look (fun _ _ => rfl) fun w _ => ?_))
    exact routine_register _ haction
  | undefine name =>
    refine hdone (routine_needContext _ (.look (fun _ _ => rfl) fun w _ => ?_))
    exact routine_unregister _ name
  | record entry => exact hdone (routine_needContext _ (.own (hown _ (.record entry))))
  | load name =>
    refine hdone (routine_needContext _ (.look (fun _ _ => rfl) fun w _ => ?_))
    split
    · exact Loader.routine_load name
    · exact .throw fun _ => rfl

end Dispatch

namespace Session

/-- Loading the module of a command before it is dispatched is routine. -/
theorem routine_prepare {Own : Shell Unit → Prop} (c : Command) : Routine K Own (prepare c) := by
  unfold prepare
  split
  · exact .throw fun _ => rfl
  · exact .bind (Loader.routine_load _) fun _ => .log _ _ _

section

variable {rerun : String → Shell Unit} (hrerun : ∀ line, Routine K Session.Own (rerun line))

include hrerun

/-- A script is routine, if it raises ordinary faults only. -/
theorem routine_runScript {hasContext : Bool} {body : List Action}
    (hbody : K → Action.areOrdinary body = true) :
    Routine K Session.Own (Dispatch.runScript rerun setInput hasContext body) := by
  induction body with
  | nil => exact .pure _
  | cons action rest ih =>
    have hboth := fun hK => Bool.and_eq_true_iff.mp (hbody hK)
    have hperform : Routine K Session.Own (Dispatch.perform rerun setInput hasContext action) :=
      Dispatch.routine_perform (fun _ => .input) (fun hK => (hboth hK).1) fun line _ => hrerun line
    rw [Dispatch.runScript_cons]
    cases hends : action.ends with
    | true =>
      -- Nothing is known of what stands behind the action, and nothing of it is done.
      cases action with
      | unknown name => exact .throw fun _ => rfl
      | raise r => exact .throw fun hK => (hboth hK).1
      | finish value => exact .pure value
      | _ => exact nomatch hends
    | false =>
      refine .bind hperform fun value? => ?_
      cases value? with
      | none =>
        refine ih fun hK => ?_
        have hrest := (hboth hK).2
        rw [hends] at hrest
        exact hrest
      | some value => exact .pure value

/-- Calling a handler is routine, if it raises ordinary faults only. -/
theorem routine_callHandler {e : Entry} (he : K → e.handler.isOrdinary = true)
    (arguments : List String) :
    Routine K Session.Own (Dispatch.callHandler rerun setInput e arguments) := by
  unfold Dispatch.callHandler
  cases hhandler : e.handler with
  | builtin b origin => exact Builtin.routine_call b origin arguments
  | script body =>
    rw [hhandler] at he
    exact .bind (.tell rfl) fun _ => routine_runScript hrerun he

/-- Dispatching is routine: in an ordinary world all handlers are ordinary. -/
theorem routine_dispatch (c : Command) :
    Routine K Session.Own (Dispatch.dispatch rerun setInput c) := by
  have hanswer : ∀ e? : Option Entry, (K → ∀ e ∈ e?, e.handler.isOrdinary = true) →
      Routine K Session.Own (Dispatch.answer rerun setInput c e?) := by
    intro e? he
    cases e? with
    | none => exact .throw fun _ => rfl
    | some e =>
      refine .bind (.log _ _ _) fun _ => ?_
      refine .bind (routine_callHandler hrerun (fun hK => he hK e rfl) _) fun result => ?_
      exact .bind (.own (.input (.record c.text))) fun _ => .pure result
  have hnone := hanswer none fun _ e he => nomatch he
  cases hempty : c.isEmpty with
  | true =>
    rw [Dispatch.dispatch_of_isEmpty hempty]
    exact .pure _
  | false =>
    rw [Dispatch.dispatch_eq hempty]
    unfold Dispatch.entryOf
    split
    · exact hnone
    · exact hnone
    · rw [bind_assoc]
      exact .look (fun _ _ => rfl) fun w _ => routine_lookup_bind hanswer

/-! ## Executing -/

/-- An execution is routine, if the lines that handlers run are. -/
theorem routine_executeWith : Routine K Session.Own (executeWith rerun) := by
  have hone (c : Command) : Routine K Session.Own (executeOne rerun c) := by
    rw [executeOne_eq]
    refine .bind (routine_prepare c) fun _ => .bind (routine_dispatch hrerun c) fun result => ?_
    -- That the session is to exit is remembered by itself.
    split
    · exact .own .exit
    · exact .pure _
  have hall (cs : List Command) : Routine K Session.Own (executeAll rerun cs) := by
    induction cs with
    | nil => exact .pure _
    | cons c cs ih =>
      unfold executeAll
      split
      · exact .bind (hone c) fun _ => ih
      · exact ih
  refine .look (fun _ _ => rfl) fun w _ => ?_
  split
  · exact .pure _
  · exact hall _

end

/-- **Running lines, however deep within each other**, is routine but for what a session does itself. -/
theorem routine_runNested (depth : Nat) (line : String) :
    Routine K Session.Own (runNested depth line) := by
  induction depth generalizing line with
  | zero => exact .throw fun _ => rfl
  | succ depth ih =>
    unfold runNested runWith
    split
    · exact .pure _
    · exact .bind (routine_setInput (fun _ => .input) line) fun _ => routine_executeWith ih

/-! ## What is known of running a line -/

section

variable {S : World → World → Prop}

/-- What a session does itself ends alike in worlds that differ in what is not noticed, if running a command
on the host and taking a line do. -/
theorem carries_own_of (hS : Unnoticed S) (hran : ∀ command, Carries S (Dispatch.runOnHost command))
    (htake : ∀ line, Carries S (modify fun w => taking w line)) {a : Shell Unit}
    (h : Session.Own a) : Carries S a := by
  cases h with
  | input h =>
    cases h with
    | ran command => exact hran command
    | record entry => exact carries_record hS entry
    | take line => exact htake line
    | keep cs => exact hS.carries_modify ⟨fun _ _ => rfl, fun _ => rfl⟩
  | exit => exact hS.carries_modify ⟨fun _ _ => rfl, fun _ => rfl⟩

end

section

variable {T : List Event → List Event → Prop} {N : Option String → Option String → Prop}

/-- What a session does itself ends alike in worlds that differ in trace and line only. -/
theorem carries_own (hT : Grows T) (hN : ∀ name, N name name) {a : Shell Unit} (h : Session.Own a) :
    Carries (World.Alike T N) a := by
  refine carries_own_of (unnoticed_alike hT) (fun command => ?_) (fun line => ?_) h
  · rintro w u ⟨hsame, htraces, hnames⟩
    have hran : u.ran command = w.ran command := by
      rw [hsame]
      rfl
    rw [Dispatch.run_runOnHost, Dispatch.run_runOnHost, hran]
    refine .ok ⟨?_, hT _ _ _ htraces, hnames⟩
    rw [hsame]
    rfl
  · intro w u h
    refine .ok (w := taking w line) (u := taking u line) ⟨?_, h.traces, hN _⟩
    rw [h.same]
    rfl

/-- **Running a line** ends alike in worlds that differ in trace and line only. -/
theorem carries_run (hT : Grows T) (hN : ∀ name, N name name) (line : String) :
    Carries (World.Alike T N) (run line) :=
  (routine_runNested _ line).carries (unnoticed_alike hT) fun _ => carries_own hT hN

end

/-- **Running a line in an ordinary world** ends with an ordinary fault at most, in an ordinary world. -/
theorem staysOrdinary_run (line : String) : StaysOrdinary (run line) := by
  refine (routine_runNested (K := True) _ line).staysOrdinary fun a ha => ?_
  cases ha with
  | input h =>
    cases h with
    | ran command =>
      intro w hw
      rw [Dispatch.run_runOnHost]
      exact .ok ⟨hw.registries, hw.files⟩
    | record entry => exact staysOrdinary_record entry
    | take line => exact fun w hw => .ok ⟨hw.registries, hw.files⟩
    | keep cs => exact fun w hw => .ok ⟨hw.registries, hw.files⟩
  | exit => exact fun w hw => .ok ⟨hw.registries, hw.files⟩

end Session

end CommandShell
