import CommandShell.Proofs.Loader.Within
import CommandShell.Proofs.Registry.Neutral
import CommandShell.Proofs.Session.Steps
import CommandShell.Proofs.Shell.Aside
import CommandShell.Session.Basic

/-! # Calls on a session

A session is given lines and told to execute them, while commands come and go in its registry and modules
are loaded (`Session.Call`). A call that ends with a fault keeps what it did up to there, and the next one
goes on (`World.afterCalls`). Reading a line loads modules at most (`within_parse`), and running its
commands on the host records them (`within_runSystemCommands`); beside that both only report. A handler
and an execution stay within whatever the actions that they call stay within (`within_runScript`,
`within_executeWith`, `within_runNested`). -/

namespace CommandShell

namespace Session

/-- A call on a session, on its registry or on the loader. -/
inductive Call
  | setInput (line : String)
  | execute
  | run (line : String)
  | isInternal (name : String)
  | load (name : String)
  | loadAll (verbose : Bool)
  | register (declaration : Declaration) (handler : Handler)
  | add (entry : Entry)
  | unregister (name : String)

/-- What a call does. -/
def Call.perform : Call → Shell Unit
  | setInput line => Session.setInput line
  | execute => Session.execute
  | run line => Session.run line
  | isInternal name => do
    let _ ← Session.isInternal name
  | load name => Loader.load name
  | loadAll verbose => do
    let _ ← Loader.loadAll verbose
  | register d handler => do Shell.register (← get).context.registry (d.entry handler)
  | add entry => do Shell.add (← get).context.registry entry
  | unregister name => do Shell.unregister (← get).context.registry name

end Session

/-- The world after some calls. Faults are caught between them. -/
def World.afterCalls (w : World) (calls : List Session.Call) : World :=
  calls.foldl (fun w call => w.after call.perform) w

namespace World

/-- No calls leave the world as it is. -/
@[simp] theorem afterCalls_nil (w : World) : w.afterCalls [] = w := rfl

/-- Calls are made one after the other. -/
@[simp] theorem afterCalls_cons (w : World) (call : Session.Call) (calls : List Session.Call) :
    w.afterCalls (call :: calls) = (w.after call.perform).afterCalls calls := rfl

/-- Any calls stay within a frame if each of them does. -/
theorem within_afterCalls {R : World → World → Prop} (hR : Shell.Frame R) {calls : List Session.Call}
    (h : ∀ call ∈ calls, Shell.Within R call.perform) (w : World) : R w (w.afterCalls calls) := by
  induction calls generalizing w with
  | nil => exact hR.refl w
  | cons call calls ih =>
    rw [afterCalls_cons]
    have hrest := ih fun call hcall => h call (List.mem_cons_of_mem _ hcall)
    exact hR.trans (h call List.mem_cons_self w) (hrest _)

end World

namespace Session

variable {R : World → World → Prop}

section

variable (hR : Shell.Frame.Logging R) (hload : Shell.Within R (Loader.loadAll false))

include hR hload

/-! ## Who is internal -/

/-- Asking whether a name is internal stays within a frame in which all modules may be loaded. -/
theorem within_isInternal (name : String) : Shell.Within R (isInternal name) := by
  have hregistered : Shell.Within R (isRegistered name) :=
    hR.within_bind hR.within_get fun _ =>
      hR.within_bind (Shell.heeds_lookup hR _ name).within fun _ => hR.within_pure _
  refine hR.within_bind hregistered fun registered => ?_
  split
  · exact hR.within_pure true
  · refine hR.within_bind (Loader.heeds_available hR).within fun available => ?_
    split
    · exact hR.within_pure true
    · exact hR.within_bind hload fun _ => hregistered

/-- Deciding who is internal stays within a relation if loading all modules does. -/
theorem within_classify (name : String) : Shell.Within R (classify name) := by
  refine hR.within_bind hR.within_get fun w => ?_
  split
  · exact within_isInternal hR hload name
  · exact hR.within_pure true
  · exact hR.within_pure _

/-! ## Reading -/

/-- So does reading one segment. -/
theorem within_readSegment (segment : List Char) :
    Shell.Within R (Line.readSegment classify segment) := by
  unfold Line.readSegment
  split
  · exact hR.within_pure _
  · exact hR.within_bind (within_classify hR hload _) fun _ => hR.within_pure _
  · exact hR.within_pure _

/-- So does reading some. -/
theorem within_readSegments (segments : List (List Char)) :
    Shell.Within R (Line.readSegments classify segments) := by
  induction segments with
  | nil => exact hR.within_pure _
  | cons s ss ih =>
    refine hR.within_bind (within_readSegment hR hload s) fun r => ?_
    split
    · exact hR.within_pure _
    · refine hR.within_bind ih fun rs => ?_
      split
      · exact hR.within_pure _
      · exact hR.within_pure _

/-- **Reading a line** stays within a relation if loading all modules does. -/
theorem within_parse (line : String) : Shell.Within R (parse line) := by
  have hread : Shell.Within R (Line.read classify line.toList) := by
    unfold Line.read
    split
    · exact hR.within_pure _
    · exact within_readSegments hR hload _
  refine hR.within_bind (hR.within_catch ?_ fun f => ?_) fun reading => ?_
  · exact hR.within_bind hread fun r => hR.within_pure _
  · split
    · exact hR.within_pure _
    · exact hR.within_throw _
  · split
    · exact hR.within_bind (hR.heeds_log _ _ _).within fun _ => hR.within_pure _
    · exact hR.within_bind (hR.heeds_log _ _ _).within fun _ => hR.within_pure _

end

/-! ## Commands for the host -/

section

variable (hR : Shell.Frame.Reporting R) (hrecord : ∀ entry, Shell.Within R (record entry))

include hR hrecord

/-- Running commands on the host stays within a frame in which entries may be stored. -/
theorem within_runSystem (commands : List (Option String)) :
    Shell.Within R (Dispatch.runSystem commands) := by
  have hprobed (name : String) : Shell.Within R (Dispatch.isSystemCommand name) := by
    unfold Dispatch.isSystemCommand
    split
    · exact hR.within_pure false
    · exact (Host.heeds_probe hR name).within
  have hran (command : String) : Shell.Within R (Dispatch.runOnHost command) := by
    refine hR.within_bind (Host.heeds_run hR command).within fun code => ?_
    split
    · exact (hR.heeds_log _ _ _).within
    · exact hR.within_pure _
  induction commands with
  | nil => exact hR.within_pure _
  | cons command rest ih =>
    cases command with
    | none => exact ih
    | some command =>
      cases hblank : Line.isBlank command with
      | true =>
        rw [Dispatch.runSystem_of_isBlank hblank]
        exact ih
      | false =>
        rw [Dispatch.runSystem_cons hblank]
        refine hR.within_bind (hprobed _) fun found => ?_
        split
        · exact hR.within_bind (hran command) fun _ => hR.within_bind (hrecord command) fun _ => ih
        · exact hR.within_throw _

/-- **Running commands on the host** stays within a relation if recording entries does. -/
theorem within_runSystemCommands (cs : List Command) : Shell.Within R (runSystemCommands cs) := by
  induction cs with
  | nil => exact hR.within_pure _
  | cons c cs ih =>
    unfold runSystemCommands
    split
    · exact hR.within_bind (within_runSystem hR hrecord _) fun _ => ih
    · exact ih

end

/-! ## Handlers -/

section

variable (hR : Shell.Frame.Reporting R) (hload : ∀ name, Shell.Within R (Loader.load name))

include hR hload

/-- **Running a script** stays within a relation if loading, recording and running lines do, and, unless
the script keeps the commands, registering and removing them as well. -/
theorem within_runScript (hrecord : ∀ entry, Shell.Within R (record entry))
    {rerun reread : String → Shell Unit} (hrerun : ∀ line, Shell.Within R (rerun line))
    (hreread : ∀ line, Shell.Within R (reread line)) {hasContext : Bool} {body : List Action}
    (hcommands : hasContext = true → Action.keepCommands body = false →
      (∀ i e, Shell.Within R (Shell.register i e)) ∧
        ∀ i name, Shell.Within R (Shell.unregister i name)) :
    Shell.Within R (Dispatch.runScript rerun reread hasContext body) := by
  have hneed {a : Shell Unit} (part : String) (h : hasContext = true → Shell.Within R a) :
      Shell.Within R (Dispatch.needContext hasContext part a) := by
    unfold Dispatch.needContext
    split
    · exact h ‹_›
    · exact hR.within_throw _
  have hsession {a : Shell Unit} (h : Shell.Within R a) :
      Shell.Within R (Dispatch.withSession hasContext a) := by
    refine hneed _ fun _ => hR.within_bind hR.within_get fun w => ?_
    split
    · exact h
    · exact hR.within_throw _
  -- Only what registers or removes asks whether the script keeps the commands.
  induction body with
  | nil => exact hR.within_pure _
  | cons action rest ih =>
    have hnext {a : Shell Unit} (h : Shell.Within R a)
        (hrest : hasContext = true → Action.keepCommands rest = false →
          (∀ i e, Shell.Within R (Shell.register i e)) ∧
            ∀ i name, Shell.Within R (Shell.unregister i name)) :
        Shell.Within R (a >>= fun _ => Dispatch.runScript rerun reread hasContext rest) :=
      hR.within_bind h fun _ => ih hrest
    cases action with
    | unknown name => exact hR.within_throw _
    | raise r => exact hR.within_throw _
    | print text => exact hnext (hR.heeds_emit _).within hcommands
    | finish value => exact hR.within_pure _
    | run line => exact hnext (hsession (hrerun line)) hcommands
    | setInput line => exact hnext (hsession (hreread line)) hcommands
    | define d script =>
      refine hnext (hneed _ fun hcontext => hR.within_bind hR.within_get fun w => ?_)
        fun hcontext _ => hcommands hcontext rfl
      exact (hcommands hcontext rfl).1 _ _
    | undefine name =>
      refine hnext (hneed _ fun hcontext => hR.within_bind hR.within_get fun w => ?_)
        fun hcontext _ => hcommands hcontext rfl
      exact (hcommands hcontext rfl).2 _ _
    | record entry => exact hnext (hneed _ fun _ => hrecord entry) hcommands
    | load name =>
      refine hnext (hneed _ fun _ => hR.within_bind hR.within_get fun w => ?_) hcommands
      split
      · exact hload name
      · exact hR.within_throw _

/-! ## Executing -/

/-- **Executing commands** stays within a relation if loading and dispatching do, and if the session may
be told to exit. -/
theorem within_executeWith {rerun : String → Shell Unit}
    (hdispatch : ∀ c, Shell.Within R (Dispatch.dispatch rerun setInput c))
    (hexit : Shell.Within R (modify fun w =>
      { w with session := { w.session with exitRequested := true } } : Shell PUnit)) :
    Shell.Within R (executeWith rerun) := by
  have hone (c : Command) : Shell.Within R (executeOne rerun c) := by
    unfold executeOne
    split
    · exact hR.within_throw _
    · refine hR.within_bind (hload _) fun _ => ?_
      refine hR.within_bind (hR.heeds_log _ _ _).within fun _ => ?_
      refine hR.within_bind (hdispatch c) fun result => ?_
      split
      · exact hexit
      · exact hR.within_pure _
  have hall (cs : List Command) : Shell.Within R (executeAll rerun cs) := by
    induction cs with
    | nil => exact hR.within_pure _
    | cons c cs ih =>
      unfold executeAll
      split
      · exact hR.within_bind (hone c) fun _ => ih
      · exact ih
  refine hR.within_bind hR.within_get fun w => ?_
  split
  · exact hR.within_pure _
  · exact hall _

end

/-- **Running lines, however deep within each other**, stays within a relation if taking a line does, and
executing it whenever the lines within it do. -/
theorem within_runNested (hR : Shell.Frame R) (hinput : ∀ line, Shell.Within R (setInput line))
    (hexecute : ∀ rerun, (∀ line, Shell.Within R (rerun line)) → Shell.Within R (executeWith rerun))
    (depth : Nat) (line : String) : Shell.Within R (runNested depth line) := by
  induction depth generalizing line with
  | zero => exact hR.within_throw _
  | succ depth ih =>
    unfold runNested runWith
    split
    · exact hR.within_pure _
    · exact hR.within_bind (hinput line) fun _ => hexecute _ ih

end Session

end CommandShell
