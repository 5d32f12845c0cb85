import CommandShell.Proofs.Session.Deeds
import CommandShell.Proofs.Session.Calls
import CommandShell.Proofs.Session.Parsing
import CommandShell.Proofs.Session.Trace
import CommandShell.Proofs.Shell.Aside

/-! # Runs within a run

A handler may run further lines on the session that called it, and each of them replaces the line that the
session has taken and its commands. The batch that is being executed is not disturbed by that: the commands
of the line are dispatched each once and in order, up to the first fault (`Session.batch_is_undisturbed`),
whatever is done within the dispatches, and however deep. -/

namespace CommandShell

open Shell

/-- Executing some commands dispatches each of them once and in order. The first fault ends it: that of a
dispatch, or the one for which a command cannot be prepared. -/
inductive Dispatches : List Command → List (Command × Option Json) → Except Fault Unit → Prop
  | done : Dispatches [] [] (.ok ())
  | returned (c : Command) (value : Json) {cs : List Command} {ds : List (Command × Option Json)}
      {r : Except Fault Unit} (rest : Dispatches cs ds r) :
      Dispatches (c :: cs) ((c, some value) :: ds) r
  | raised (c : Command) (cs : List Command) (f : Fault) : Dispatches (c :: cs) [(c, none)] (.error f)
  | unprepared (c : Command) (cs : List Command) (f : Fault) : Dispatches (c :: cs) [] (.error f)

/-- The commands that a session executes after a line. A blank line leaves it those that it has. -/
def World.batch (w : World) (line : String) : Except Fault (List Command) :=
  if Line.isBlank line then .ok (w.session.commands.getD [])
  else (Session.taking w line).outcome (Session.parse line)

namespace Session

variable (inner : String → World → List Deed) (rerun : String → Shell Unit)

/-! ## One batch -/

/-- There is no dispatch among the plain events of an action. -/
theorem filterMap_dispatch?_told {α : Type} (w : World) (a : Shell α) :
    (w.told a).filterMap Deed.dispatch? = [] := by
  rw [World.told, List.filterMap_map]
  exact List.filterMap_eq_nil_iff.mpr fun _ _ => rfl

/-- **Executing one command** dispatches it at most once, and exactly once if there is no fault. -/
theorem dispatches_one (c : Command) (w : World) :
    (∃ f u, (executeOne rerun c).run w = .error f u ∧
      ((commandDeeds inner rerun c w).filterMap Deed.dispatch? = [] ∨
        (commandDeeds inner rerun c w).filterMap Deed.dispatch? = [(c, none)])) ∨
    ∃ value u, (executeOne rerun c).run w = .ok () u ∧
      (commandDeeds inner rerun c w).filterMap Deed.dispatch? = [(c, some value)] := by
  rw [executeOne_eq]
  cases hprepare : (prepare c).run w with
  | error f u =>
    refine .inl ⟨f, u, run_bind_error hprepare _, .inl ?_⟩
    rw [commandDeeds, World.deedsThen_of_error hprepare, filterMap_dispatch?_told]
  | ok x u =>
    have hdeeds : (commandDeeds inner rerun c w).filterMap Deed.dispatch?
        = [(c, (u.outcome (Dispatch.dispatch rerun setInput c)).toOption)] := by
      rw [commandDeeds, World.deedsThen_of_ok hprepare, List.filterMap_append, filterMap_dispatch?_told]
      rfl
    rw [run_bind_ok hprepare, hdeeds]
    cases hdispatch : (Dispatch.dispatch rerun setInput c).run u with
    | error f v =>
      refine .inl ⟨f, v, run_bind_error hdispatch _, .inr ?_⟩
      rw [World.outcome_of_error hdispatch]
      rfl
    | ok value v =>
      refine .inr ⟨value, _, run_settle_of_ok hdispatch, ?_⟩
      rw [World.outcome_of_ok hdispatch]
      rfl

/-- **Executing a batch** dispatches its internal commands. The batch is the argument of the loop, so what a
dispatch does to the session is of no account to those that follow. -/
theorem dispatches_batch (cs : List Command) (w : World) :
    Dispatches (cs.filter Command.isInternal) ((batchDeeds inner rerun cs w).filterMap Deed.dispatch?)
      (w.outcome (executeAll rerun cs)) := by
  induction cs generalizing w with
  | nil => exact .done
  | cons c cs ih =>
    cases hskip : c.isSystem || c.isEmpty with
    | true =>
      rw [List.filter_cons_of_neg (Command.not_isInternal hskip), batchDeeds, if_pos hskip,
        executeAll_of_skipped hskip]
      exact ih w
    | false =>
      rw [List.filter_cons_of_pos (Command.isInternal_of_kept hskip), batchDeeds,
        if_neg (Bool.eq_false_iff.mp hskip), executeAll_of_kept hskip]
      obtain ⟨f, u, hrun, hnone | hraised⟩ | ⟨value, u, hrun, hreturned⟩ :=
        dispatches_one inner rerun c w
      · rw [World.deedsThen_of_error hrun, World.outcome_of_error (run_bind_error hrun _), hnone]
        exact .unprepared c _ f
      · rw [World.deedsThen_of_error hrun, World.outcome_of_error (run_bind_error hrun _), hraised]
        exact .raised c _ f
      · rw [World.deedsThen_of_ok hrun, World.outcome_bind_ok hrun, List.filterMap_append, hreturned]
        exact .returned c value (ih u)

/-! ## The batch of a line -/

/-- A line is read to the commands that it parses to, and running those for the host leaves them. -/
theorem commands_after_setInput {w : World} {line : String} {cs : List Command}
    (h : w.batch line = .ok cs) : (w.after (setInput line)).session.commands.getD [] = cs := by
  unfold World.batch at h
  cases hline : Line.isBlank line with
  | true =>
    rw [if_pos hline] at h
    rw [setInput_of_isBlank hline]
    exact Except.ok.inj h
  | false =>
    rw [if_neg (Bool.eq_false_iff.mp hline)] at h
    have hparse := World.run_of_outcome_ok h
    have haside := within_runSystemCommands World.reporting_aside (fun e => (aside_record e).within)
      cs (keeping ((taking w line).after (parse line)) cs)
    rw [World.after, run_setInput_of_read hline hparse, ← World.after, haside.session]
    rfl

/-- The deeds and the outcome of an execution are those of the commands that were read. -/
theorem deeds_of_commands {w : World} {cs : List Command} (h : w.session.commands.getD [] = cs) :
    executionDeeds inner rerun w = batchDeeds inner rerun cs w ∧
      w.outcome (executeWith rerun) = w.outcome (executeAll rerun cs) := by
  refine ⟨by rw [executionDeeds, h], ?_⟩
  rw [executeWith, World.outcome_bind_ok (EStateM.run_get w)]
  cases hcommands : w.session.commands with
  | none =>
    rw [hcommands] at h
    cases h
    rfl
  | some cs' =>
    rw [hcommands] at h
    cases h
    rfl

/-- A command that a line writes is either for the host or internal. -/
theorem Written.isInternal {c : Command} (h : Written c) : c.isInternal = !c.isSystem := by
  cases h with
  | forHost h => rfl
  | internal name values parameters => rfl

/-- **Lines within lines.** When a session has read a line, it executes the commands of that line: the
internal ones are dispatched, each once and in order, up to the first fault, with which the execution ends.
What a handler does within its dispatch, lines that it reads or runs included, to any depth, changes nothing
about that. The deeds of the execution account for it, so all that is recorded within a dispatch is
recorded before the entry of the dispatch itself, and the shell is to exit afterwards if it was before or if
a dispatch that returned, at any depth, returned so. -/
theorem batch_is_undisturbed {w : World} {line : String} {cs : List Command}
    (h : w.batch line = .ok cs) (depth : Nat) :
    let w₁ := w.after (setInput line)
    let execution := executeWith (runNested depth)
    let deeds := executionDeeds (lineDeeds depth) (runNested depth) w₁
    (Line.isBlank line = false → ∀ c ∈ cs, c.isInternal = !c.isSystem) ∧
      Dispatches (cs.filter Command.isInternal) (deeds.filterMap Deed.dispatch?)
        (w₁.outcome execution) ∧
      w₁.Accounts deeds (w₁.after execution) := by
  intro w₁ execution deeds
  have hcommands : w₁.session.commands.getD [] = cs := commands_after_setInput h
  obtain ⟨hdeeds, houtcome⟩ := deeds_of_commands (lineDeeds depth) (runNested depth) hcommands
  refine ⟨fun hline c hc => ?_, ?_, tells_executeWith (tells_runNested depth) w₁⟩
  · rw [World.batch, if_neg (Bool.eq_false_iff.mp hline)] at h
    cases hparse : (parse line).run (taking w line) with
    | error f u =>
      rw [World.outcome_of_error hparse] at h
      cases h
    | ok cs' u =>
      rw [World.outcome_of_ok hparse] at h
      cases h
      exact (gives_parse line _ _ _ hparse c hc).isInternal
  · show Dispatches _ ((executionDeeds (lineDeeds depth) (runNested depth) w₁).filterMap _) _
    rw [hdeeds, houtcome]
    exact dispatches_batch _ _ cs w₁

/-- A world with a command that runs another one and asks to exit, and with that other one, which prints a
line. -/
def nestingWorld : World :=
  { (default : World) with
    registries := ⟨⟨[(default, ⟨⟨[
      ("outer", Declaration.entry ⟨"outer", "Run another command", none, [], true⟩
        (.script [.run "inner", .finish (.bool true)])),
      ("inner", Declaration.entry ⟨"inner", "Print a line", none, [], false⟩
        (.script [.print "Hello!"]))]⟩, {}⟩)]⟩, {}, 1⟩
    context := ⟨default, true, true⟩
    classifier := .everything
    history := .memory [] }

/-- Though the first command of the sample runs a line itself, both commands are dispatched, in order. -/
theorem batch_is_undisturbed_sample :
    let w₁ := nestingWorld.after (setInput "outer; inner")
    let execution := executeWith (runNested 1)
    let deeds := executionDeeds (lineDeeds 1) (runNested 1) w₁
    nestingWorld.batch "outer; inner" = .ok [.internal "outer" [] [], .internal "inner" [] []] ∧
      Dispatches [.internal "outer" [] [], .internal "inner" [] []] (deeds.filterMap Deed.dispatch?)
        (w₁.outcome execution) ∧
      w₁.Accounts deeds (w₁.after execution) ∧
      (Deed.events deeds).filterMap Event.entry? = ["inner", "outer", "inner"] ∧
      Deed.exits deeds = true := by
  have hbatch : nestingWorld.batch "outer; inner"
      = .ok [.internal "outer" [] [], .internal "inner" [] []] := by rfl
  obtain ⟨-, hdispatches, haccounts⟩ := batch_is_undisturbed hbatch 1
  exact ⟨hbatch, hdispatches, haccounts, by decide +kernel, by decide +kernel⟩

end Session

end CommandShell
