import CommandShell.Proofs.Session.Classified
import CommandShell.Proofs.Session.Trace

/-! # Internal commands are found

When an internal command is executed, the module of its name is loaded and the registry is asked for the
name. In a session of docile commands a name that is known is found in this way, and the handler that is
called misses no command either (`heedsAt_executeOne`). Since all internal commands of a line are known
once it was read, executing a line that was taken misses no command (`finds_internal_commands`). -/

namespace CommandShell

open World

variable {B : Builtin → Prop} {w u : World}

namespace Dispatch

/-! ## Calling handlers -/

section

variable {R : World → World → Prop} (hR : Shell.Frame R) {α : Type} {a : Shell α}

include hR

/-- An action that needs the context misses no command for the lack of it. -/
theorem heeds_needContext (ha : Shell.Heeds R a) (hasContext : Bool) (part : String) :
    Shell.Heeds R (needContext hasContext part a) := by
  unfold needContext
  split
  · exact ha
  · exact hR.heeds_throw rfl

end

variable (h : w.Prepared B) (rerun reread : String → Shell Unit)

include h

/-- Loading the module of a name keeps a session steady, and misses no command. -/
theorem heeds_load (name : String) : Shell.Heeds (Keeps B w) (Loader.load name) :=
  ⟨h.keeps_load name, Loader.faults_load name⟩

/-- A docile handler misses no command. It may load modules and register commands. -/
theorem heeds_runScript {body : List Action} (hbody : Action.Docile body) (hasContext : Bool) :
    Shell.Heeds (Keeps B w) (runScript rerun reread hasContext body) := by
  have hR := reporting_keeps (B := B) (w := w)
  -- A docile body has only the actions that its constructors let through.
  induction hbody with
  | nil => exact hR.heeds_pure _
  | @plain action rest hplain _ ih =>
    cases action with
    | unknown name => exact nomatch hplain
    | run line => exact nomatch hplain
    | setInput line => exact nomatch hplain
    | define d body => exact nomatch hplain
    | undefine name => exact nomatch hplain
    | raise r => exact hR.heeds_throw rfl
    | print text => exact hR.heeds_bind (hR.heeds_emit _) fun _ => ih
    | finish value => exact hR.heeds_pure _
    | record entry =>
      exact hR.heeds_bind (heeds_needContext hR.toFrame (keeps_record entry) _ _) fun _ => ih
    | load name =>
      refine hR.heeds_bind (heeds_needContext hR.toFrame ?_ _ _) fun _ => ih
      refine hR.heeds_bind hR.heeds_get fun v => ?_
      split
      · exact heeds_load h name
      · exact hR.heeds_throw rfl
  | @define d body rest hnamed hbody _ _ ih =>
    have he : (d.entry (.script body)).Docile B := hnamed.docile_entry hbody
    refine hR.heeds_bind (heeds_needContext hR.toFrame ?_ _ _) fun _ => ih
    exact hR.heeds_bind hR.heeds_get fun v => ⟨keeps_register he _, Shell.faults_register _ _⟩

/-- **A docile entry** is called without missing a command. -/
theorem heeds_callHandler {e : Entry} (he : e.handler.Docile B) (arguments : List String) :
    Shell.Heeds (Keeps B w) (callHandler rerun reread e arguments) := by
  have hR := reporting_keeps (B := B) (w := w)
  unfold callHandler
  cases hhandler : e.handler with
  | script body =>
    rw [hhandler] at he
    exact hR.heeds_bind (hR.heeds_emit _) fun _ => heeds_runScript h rerun reread he _
  | builtin b origin =>
    rw [hhandler] at he
    by_cases hhelp : b = .help
    · subst hhelp
      have hload : Shell.Heeds (Keeps B w) (Loader.loadAll false) :=
        ⟨h.keeps_loadAll false, Loader.faults_loadAll false⟩
      exact hR.heeds_bind (Builtin.heeds_showHelp hR.toPrinting hload) fun _ => hR.heeds_pure _
    · have haside := Builtin.aside_call hhelp origin arguments
      exact ⟨fun u => keeps_of_aside (haside.within u) (.call u he hhelp origin arguments),
        haside.faults⟩

/-- **A command that the registry answers** is dispatched without missing a command. -/
theorem heedsAt_dispatch (hu : Steady B w u) {c : Command} {name : String} (hname : c.name = some name)
    (hanswers : u.commands.Answers (normalName name)) :
    Shell.HeedsAt (Keeps B w) u (dispatch rerun reread c) := by
  have hR := reporting_keeps (B := B) (w := w)
  have hne : name ≠ "" := Session.ne_empty_of_answers hu hanswers
  obtain ⟨_, e, he, hlookup⟩ | ⟨hnone, _⟩ := Session.lookup_cases hu name
  · have hentry : (entryOf c).run u = .ok (some e) u := by
      unfold entryOf
      rw [hname]
      split
      · rename_i heq
        exact nomatch heq
      · rename_i heq
        exact absurd (Option.some.inj heq) hne
      · rename_i heq
        cases heq
        rw [Shell.run_bind_ok (EStateM.run_get u)]
        exact hlookup
    have hanswer : Shell.Heeds (Keeps B w) (answer rerun reread c (some e)) := by
      refine hR.heeds_bind (hR.heeds_log _ _ _) fun _ => ?_
      refine hR.heeds_bind (heeds_callHandler h rerun reread he _) fun _ => ?_
      exact hR.heeds_bind (keeps_record _) fun _ => hR.heeds_pure _
    cases hempty : c.isEmpty with
    | true =>
      rw [dispatch_of_isEmpty hempty]
      exact (hR.heeds_pure _).at u
    | false =>
      -- Looking the entry up changes nothing and does not fail, so all depends on the answer.
      rw [dispatch_eq hempty]
      apply hR.heedsAt_bind
      · constructor
        · rw [after_of_ok hentry]
          exact hR.refl u
        · intro f v hfault
          rw [hentry] at hfault
          exact nomatch hfault
      · intro e? v hrun
        rw [hentry] at hrun
        cases hrun
        exact hanswer.at u
  · exact absurd hanswers hnone

end Dispatch

namespace Session

variable (h : w.Prepared B) (rerun : String → Shell Unit)

include h

/-! ## Executing -/

/-- **A known command** is executed without missing a command. -/
theorem heedsAt_executeOne (hu : Steady B w u) {c : Command}
    (hknown : ∀ name ∈ c.name, w.Knows u name) :
    Shell.HeedsAt (Keeps B w) u (executeOne rerun c) := by
  have hR := reporting_keeps (B := B) (w := w)
  unfold executeOne
  cases hname : c.name with
  | none => exact (hR.heeds_throw rfl).at u
  | some name =>
    obtain ⟨_, hknows⟩ := hknown name hname
    refine hR.heedsAt_bind ((Dispatch.heeds_load h name).at u) fun _ u₁ hload => ?_
    obtain ⟨hu₁, hkeeps⟩ := (h.keeps_load name).of_ok hload hu
    -- Whatever made the name known, the registry answers it now.
    have hanswers : u₁.commands.Answers (normalName name) := by
      rcases hknows with hanswers | hoffers
      · exact hkeeps _ hanswers
      · exact h.answers_load hu hoffers hload
    refine hR.heedsAt_bind ((hR.heeds_log _ _ _).at u₁) fun _ u₂ hlog => ?_
    obtain ⟨hu₂, hkeeps₂⟩ := (hR.heeds_log _ _ _).within.of_ok hlog hu₁
    have hdispatch := Dispatch.heedsAt_dispatch h rerun setInput hu₂ hname (hkeeps₂ _ hanswers)
    have hremember : Shell.Heeds (Keeps B w) (modify fun v =>
        { v with session := { v.session with exitRequested := true } } : Shell PUnit) :=
      Shell.Frame.heeds_modify fun v => keeps_session fun hv => hv.session
    refine hR.heedsAt_bind hdispatch fun result u₃ _ => ?_
    split
    · exact hremember.at u₃
    · exact (hR.heeds_pure _).at u₃

/-- **Known commands** are executed without missing one. -/
theorem heedsAt_executeAll (hu : Steady B w u) {cs : List Command} (hknown : w.KnowsAll u cs) :
    Shell.HeedsAt (Keeps B w) u (executeAll rerun cs) := by
  have hR := reporting_keeps (B := B) (w := w)
  induction cs generalizing u with
  | nil => exact (hR.heeds_pure _).at u
  | cons c cs ih =>
    have hrest : w.KnowsAll u cs := fun c hc => hknown c (List.mem_cons_of_mem _ hc)
    unfold executeAll
    split
    · rename_i hinternal
      have hsystem : c.isSystem = false := by
        cases hc : c.isSystem with
        | false => rfl
        | true =>
          rw [hc] at hinternal
          exact absurd hinternal Bool.false_ne_true
      have hone := heedsAt_executeOne h rerun hu (hknown c List.mem_cons_self hsystem)
      -- The other commands stay known while the first one is executed.
      refine hR.heedsAt_bind hone fun _ u₁ hrun => ?_
      have hwithin := hone.within
      rw [after_of_ok hrun] at hwithin
      obtain ⟨hu₁, hkeeps⟩ := hwithin hu
      exact ih hu₁ (hrest.mono hkeeps)
    · exact ih hu hrest

/-- In a steady session an execution misses no command. -/
theorem heedsAt_executeWith (hu : Steady B w u) :
    Shell.HeedsAt (Keeps B w) u (executeWith rerun) := by
  have hR := reporting_keeps (B := B) (w := w)
  refine hR.heedsAt_bind (hR.heeds_get.at u) fun v u₁ hget => ?_
  cases hget
  cases hcommands : u.session.commands with
  | none => exact (hR.heeds_pure _).at u
  | some cs => exact heedsAt_executeAll h rerun hu (hu.session cs hcommands)

/-! ## Calls -/

/-- **Taking a line** keeps a world steady: what the session keeps of it is known. -/
theorem keeps_setInput (line : String) : Shell.Within (Keeps B w) (setInput line) := by
  have hR := reporting_keeps (B := B) (w := w)
  intro u
  unfold setInput
  split
  · exact hR.within_pure _ u
  · have htake : Keeps B w u { u with session := { u.session with name := some line } } :=
      keeps_session fun hu => hu.session
    refine hR.bind_at htake fun _ u₁ htaken => ?_
    intro hu₁
    refine hR.bind_at (within_parse hR.toLogging (h.keeps_loadAll false) line u₁) (fun cs u₂ hparse => ?_) hu₁
    have hknown := knowsAll_of_parse h hu₁ hparse
    have hkeep : Keeps B w u₂ { u₂ with session := { u₂.session with commands := some cs } } :=
      keeps_session fun _ cs' hcs => Option.some.inj hcs ▸ hknown
    refine hR.bind_at hkeep fun _ u₃ _ => ?_
    exact within_runSystemCommands hR (fun entry => (keeps_record entry).within) cs u₃

/-- A call adds docile entries only, and removes none. -/
def Call.Docile (B : Builtin → Prop) : Call → Prop
  | .register d handler => d.IsNamed ∧ handler.Docile B
  | .add e => e.Docile B
  | .unregister _ => False
  | _ => True

/-- A docile call keeps a session steady. -/
theorem keeps_perform {call : Call} (hcall : call.Docile B) :
    Shell.Within (Keeps B w) call.perform := by
  have hR := reporting_keeps (B := B) (w := w)
  have hexecute (rerun : String → Shell Unit) : Shell.Within (Keeps B w) (executeWith rerun) :=
    fun u hu => (heedsAt_executeWith h rerun hu).within hu
  cases call with
  | setInput line => exact keeps_setInput h line
  | execute => exact hexecute _
  | run line =>
    show Shell.Within (Keeps B w) (runWith (runNested maxNesting) line)
    unfold runWith
    split
    · exact hR.within_pure _
    · exact hR.within_bind (keeps_setInput h line) fun _ => hexecute _
  | isInternal name =>
    exact hR.within_bind (within_isInternal hR.toLogging (h.keeps_loadAll false) name) fun _ => hR.within_pure _
  | load name => exact h.keeps_load name
  | loadAll verbose => exact hR.within_bind (h.keeps_loadAll verbose) fun _ => hR.within_pure _
  | register d handler =>
    have he : (d.entry handler).Docile B := hcall.1.docile_entry hcall.2
    exact hR.within_bind hR.within_get fun v => keeps_register he _
  | add e => exact hR.within_bind hR.within_get fun v => keeps_add hcall _
  | unregister name => exact hcall.elim

/-- **Internal commands are found.** In a session of docile commands, after any calls: if a line is
taken, executing it does not miss a command. -/
theorem finds_internal_commands {calls : List Call} (hcalls : ∀ call ∈ calls, call.Docile B)
    {line : String} {u : World} (hinput : (setInput line).run (w.afterCalls calls) = .ok () u)
    (name : Option String) (v : World) : execute.run u ≠ .error (.unknownCommand name) v := by
  have hcalled := within_afterCalls reporting_keeps.toFrame
    (fun call hcall => keeps_perform h (hcalls call hcall)) w h.steady_self
  have hu := ((keeps_setInput h line).of_ok hinput hcalled.1).1
  intro hexecute
  exact nomatch (heedsAt_executeWith h _ hu).faults _ v hexecute

end Session

/-! ## A session with one module -/

/-- Nothing happens to files while the history is in memory and no command of the shell is called. -/
theorem World.Reaches.files {w u : World} (h : w.Reaches (fun _ => False) u)
    (hhistory : ∃ es, w.history = .memory es) :
    u.files = w.files ∧ ∃ es, u.history = .memory es := by
  induction h with
  | refl => exact ⟨rfl, hhistory⟩
  | @tail v u _ hstep ih =>
    obtain ⟨hfiles, es, hmemory⟩ := ih
    cases hstep with
    | inside registries attempted session imports trace => exact ⟨hfiles, es, hmemory⟩
    | record entry =>
      rw [after_of_ok (run_record_of_memory hmemory entry)]
      exact ⟨hfiles, es ++ [entry], rfl⟩
    | call hb => exact hb.elim

namespace Session

/-- What the module does: it registers a command under its own name, with an alias. -/
def extraBody : List Action :=
  [.define ⟨"extra", "One more command", none, ["more"], false⟩ [.print "More!"]]

/-- The module of the sample is docile. -/
theorem docile_extraBody : (Module.script extraBody).Docile (fun _ => False) "extra" := by
  have hnamed : Declaration.IsNamed ⟨"extra", "One more command", none, ["more"], false⟩ := by
    unfold Declaration.IsNamed
    decide
  exact ⟨.define hnamed (.plain rfl .nil) .nil, by decide⟩

/-- A new session without commands, whose loader finds one module. -/
def extraWorld : World :=
  { (default : World) with
    files := sampleTree (.script extraBody)
    registries := ⟨{}, {}, 0⟩
    loader := ⟨[sampleDirectory], .global, []⟩
    history := .memory []
    context := ⟨.global, true, true⟩
    session := fresh
    classifier := .session }

/-- The world of the sample is prepared. -/
theorem prepared_extraWorld : extraWorld.Prepared fun _ => False where
  classifier := rfl
  fresh := rfl
  registry := rfl
  redirect := rfl
  commands := Registry.docile_empty
  attempted key hkey := absurd hkey List.not_mem_nil
  rooted d hd := by
    rw [List.mem_singleton.mp hd]
    exact isRooted_sampleDirectory
  modules t w' hindex found hfound := by
    rw [run_index_sample rfl rfl] at hindex
    cases hindex
    rw [List.mem_singleton.mp hfound]
    exact ⟨"/cmds/extra/__init__.py", _, _, rfl, read_sampleTree _ _, docile_extraBody⟩
  steady u hreaches d _ := by
    rw [(hreaches.files ⟨[], rfl⟩).1]
    exact .refl d _

/-- The world in which `greet` was added. -/
def greetAdded : World := extraWorld.after (Call.add sampleEntry).perform

/-- The world in which the module was loaded while the line `more` was read. -/
def moreLoaded : World :=
  let extra := Declaration.entry ⟨"extra", "One more command", none, ["more"], false⟩
    (.script [.print "More!"])
  { taking greetAdded "more" with
    registries := ⟨⟨[(.global, (Registry.empty.add sampleEntry).add extra)]⟩, {}, 1⟩
    loader := ⟨[sampleDirectory], .global, ["extra"]⟩
    trace := [.imported "extra",
      .log .debug .loader ("Loaded command module " ++ sampleFile.toString)] }

/-- Reading the next line loads the module. -/
theorem run_loadAll_more :
    (Loader.loadAll false).run (taking greetAdded "more") = .ok 1 moreLoaded := by
  let v := taking greetAdded "more"
  have hread : v.files.read v.cwd "/cmds/extra/__init__.py"
      = .ok (["cmds", "extra", "__init__.py"], .code (.script extraBody)) := read_sampleTree _ _
  have himport : (importFile sampleFile).run v = .ok none _ :=
    (run_importFile_of_read isRooted_sampleFile rfl hread).trans rfl
  have hredirected : (Shell.redirected .global .global (importFile sampleFile)).run v = .ok none _ :=
    Shell.run_redirected_ok .global .global himport
  have hmodule : (Loader.importModule "extra" sampleFile).run v = .ok true moreLoaded :=
    (Shell.run_bind_ok hredirected _).trans rfl
  exact (Shell.run_bind_ok (run_index_sample rfl rfl) _).trans (Shell.run_bind_ok hmodule _)

/-- The alias `more` is internal, though its module was not loaded. -/
theorem run_classify_more :
    (classify "more").run (taking greetAdded "more") = .ok true moreLoaded := by
  have havailable : Loader.available.run (taking greetAdded "more")
      = .ok ["extra"] (taking greetAdded "more") := by
    unfold Loader.available
    rw [Shell.run_bind_ok (run_index_sample rfl rfl)]
    simp [Table.keys]
  exact (Shell.run_bind_ok havailable _).trans ((Shell.run_bind_ok run_loadAll_more _).trans rfl)

/-- The next line is read. -/
theorem run_setInput_more : ∃ u, (setInput "more").run greetAdded = .ok () u := by
  have hsegment : (Line.readSegment classify "more".toList).run (taking greetAdded "more")
      = .ok (.ok (some (.internal "more" [] []))) moreLoaded := (Shell.run_bind_ok run_classify_more _).trans rfl
  have hread : (Line.read classify "more".toList).run (taking greetAdded "more")
      = .ok (.ok [.internal "more" [] []]) moreLoaded := (Shell.run_bind_ok hsegment _).trans rfl
  have hreading : (Line.read classify "more".toList >>= fun r =>
      pure (r.mapError Token.Fault.message)).run (taking greetAdded "more")
        = .ok (.ok [.internal "more" [] []]) moreLoaded := (Shell.run_bind_ok hread _).trans rfl
  have hrecover := Shell.run_recover_ok hreading Fault.isValue fun f => pure (.error f.message)
  have hparse : (parse "more").run (taking greetAdded "more") = .ok [.internal "more" [] []] _ :=
    (Shell.run_bind_ok hrecover _).trans rfl
  exact ⟨_, (Shell.run_bind_ok hparse _).trans rfl⟩

/-- The alias of a module that was not loaded is taken as a line, and its command is found. -/
theorem finds_more : extraWorld.Prepared (fun _ => False) ∧
    (∀ call ∈ [Call.add sampleEntry], call.Docile fun _ => False) ∧
    ∃ u, (setInput "more").run (extraWorld.afterCalls [.add sampleEntry]) = .ok () u ∧
      ∀ name v, execute.run u ≠ .error (.unknownCommand name) v := by
  have hgreet : sampleEntry.Docile fun _ => False := by
    have hnamed : Declaration.IsNamed ⟨"greet", "Greet someone", none, [], false⟩ := by
      unfold Declaration.IsNamed
      decide
    have hbody : Handler.Docile (fun _ => False) (.script [.print "Hello!"]) := .plain rfl .nil
    exact hnamed.docile_entry hbody
  have hcalls : ∀ call ∈ [Call.add sampleEntry], call.Docile fun _ => False := by
    intro call hcall
    rw [List.mem_singleton.mp hcall]
    exact hgreet
  obtain ⟨u, hinput⟩ := run_setInput_more
  exact ⟨prepared_extraWorld, hcalls, u, hinput,
    finds_internal_commands prepared_extraWorld hcalls hinput⟩

end Session

end CommandShell
