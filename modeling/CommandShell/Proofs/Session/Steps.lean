import CommandShell.Proofs.Session.Ready

/-! # Executing, step by step

How a line is executed, put together from steps that have a name. A command for the host is looked for,
run and recorded (`Dispatch.runSystem_cons`). A handler does one action after the other
(`Dispatch.runScript_cons`). A command is dispatched by looking its entry up, announcing the call,
making it and recording the command (`Dispatch.dispatch_eq`, `Session.run_dispatch`). Executing a command
is to prepare it and to settle it (`Session.executeOne_eq`), and a batch of commands is gone through one
by one, past those that are not internal (`Session.executeAll_of_skipped`, `Session.executeAll_of_kept`). -/

namespace CommandShell

open Shell

/-- Whether a command is called by the shell itself. -/
def Command.isInternal (c : Command) : Bool := !(c.isSystem || c.isEmpty)

/-- A command that is for the host or empty is not internal. -/
theorem Command.not_isInternal {c : Command} (h : (c.isSystem || c.isEmpty) = true) :
    ¬c.isInternal = true := by
  rw [Command.isInternal, h]
  exact Bool.false_ne_true

/-- A command that is neither is internal. -/
theorem Command.isInternal_of_kept {c : Command} (h : (c.isSystem || c.isEmpty) = false) :
    c.isInternal = true := by
  rw [Command.isInternal, h]
  rfl

/-- The entry that a command calls. A command without a name, or with an empty one, calls none. -/
def Registry.entryFor (r : Registry) (c : Command) : Option Entry :=
  match c.name with
  | none => none
  | some name => if name = "" then none else (r.find name).toOption.join

namespace Dispatch

variable {rerun reread : String → Shell Unit} {c : Command}

/-! ## Commands for the host -/

/-- Run a command on the host, and log how it ends if it fails. -/
def runOnHost (command : String) : Shell Unit := do
  let code ← Host.run command
  if code ≠ 0 then
    log .debug .dispatcher (Text.quoted command ++ " exited with " ++ toString code)

/-- A blank command is passed over. -/
theorem runSystem_of_isBlank {command : String} (h : Line.isBlank command = true)
    (rest : List (Option String)) : runSystem (some command :: rest) = runSystem rest := by
  rw [runSystem, if_pos h]

/-- **A command for the host** is looked for, run and recorded. One that is not found ends the list. -/
theorem runSystem_cons {command : String} (h : Line.isBlank command = false)
    (rest : List (Option String)) :
    runSystem (some command :: rest) = isSystemCommand (executableName command) >>= fun found =>
      if found then runOnHost command >>= fun _ => record command >>= fun _ => runSystem rest
      else throw (.unknownCommand (some (executableName command))) := by
  have hfound (found : Bool) : (if !found then throw (.unknownCommand (some (executableName command)))
      else do
        let code ← Host.run command
        if code ≠ 0 then
          log .debug .dispatcher (Text.quoted command ++ " exited with " ++ toString code)
        record command
        runSystem rest : Shell Unit)
      = if found then runOnHost command >>= fun _ => record command >>= fun _ => runSystem rest
        else throw (.unknownCommand (some (executableName command))) := by
    cases found with
    | false => rfl
    | true =>
      unfold runOnHost
      simp only [Bool.not_true, Bool.false_eq_true, if_false, if_true]
      rw [bind_assoc]
      refine bind_congr fun code => ?_
      -- Whether the end is logged or not, the command is recorded behind it.
      split
      · rfl
      · rw [pure_bind]
  unfold isSystemCommand
  rw [runSystem, if_neg (Bool.eq_false_iff.mp h)]
  dsimp only
  split
  · exact bind_congr hfound
  · exact bind_congr hfound

/-! ## Handlers -/

/-- What a single action of a handler does, and the value that the handler returns with, if it does. -/
def perform (rerun reread : String → Shell Unit) (hasContext : Bool) : Action → Shell (Option Json)
  | .unknown name => throw (.unknownCommand name)
  | .raise r => throw (.raised r)
  | .print text => done (printLine text)
  | .finish value => pure (some value)
  | .run line => done (withSession hasContext (rerun line))
  | .setInput line => done (withSession hasContext (reread line))
  | .define d body => done (needContext hasContext "registry" do
      register (← get).context.registry (d.entry (.script body)))
  | .undefine name => done (needContext hasContext "registry" do
      unregister (← get).context.registry name)
  | .record entry => done (needContext hasContext "history" (record entry))
  | .load name => done (needContext hasContext "loader" do
      if (← get).context.hasLoader then Loader.load name
      else throw (.noAttribute "NoneType" "load"))
where
  /-- The handler goes on behind an action. -/
  done (a : Shell Unit) : Shell (Option Json) := do
    a
    pure none

/-- A handler does its actions one after the other, up to the first with which it returns. -/
theorem runScript_cons (hasContext : Bool) (action : Action) (rest : List Action) :
    runScript rerun reread hasContext (action :: rest)
      = perform rerun reread hasContext action >>= fun value? =>
          value?.elim (runScript rerun reread hasContext rest) pure := by
  have hdone (a : Shell Unit) : (perform.done a >>= fun value? =>
      value?.elim (runScript rerun reread hasContext rest) pure)
        = a >>= fun _ => runScript rerun reread hasContext rest := by
    unfold perform.done
    rw [bind_assoc]
    rfl
  cases action with
  | unknown name => rfl
  | raise r => rfl
  | finish value => rfl
  | _ => exact (hdone _).symm

/-! ## Dispatching -/

/-- Log that a command is dispatched to an entry. -/
def announce (c : Command) (e : Entry) : Shell Unit :=
  log .debug .dispatcher
    ("Dispatching " ++ e.name ++ " with " ++ toString (c.fields.length - 1) ++ " argument(s)")

/-- Announcing a call reports it. -/
theorem after_announce (c : Command) (e : Entry) (w : World) :
    w.after (announce c e) = w.emitted (w.reports .debug .dispatcher
      ("Dispatching " ++ e.name ++ " with " ++ toString (c.fields.length - 1) ++ " argument(s)")) :=
  World.after_of_ok (run_log _ _ _ w)

/-- Announcing a call never fails. -/
theorem run_announce (c : Command) (e : Entry) (w : World) :
    (announce c e).run w = .ok () (w.after (announce c e)) := by
  rw [after_announce]
  exact run_log _ _ _ w

/-- Call the handler of the entry that was found for a command, and record the command. -/
def answer (rerun reread : String → Shell Unit) (c : Command) : Option Entry → Shell Json
  | none => throw (.unknownCommand c.name)
  | some e => do
    announce c e
    let result ← callHandler rerun reread e c.fields.tail
    record c.text
    pure result

/-- Dispatching a command that is empty does nothing. -/
theorem dispatch_of_isEmpty (h : c.isEmpty = true) : dispatch rerun reread c = pure .null := by
  unfold dispatch
  rw [if_pos h]

/-- **Dispatching a command** is to look its entry up and to answer with it. -/
theorem dispatch_eq (h : c.isEmpty = false) :
    dispatch rerun reread c = entryOf c >>= answer rerun reread c := by
  unfold dispatch
  rw [if_neg (Bool.eq_false_iff.mp h)]
  rfl

/-- The entry of a command with a name is looked up in the registry of the context. -/
theorem entryOf_internal {name : String} (hname : name ≠ "") (vs ps : List String) :
    entryOf (.internal name vs ps) = get >>= fun w => lookup w.context.registry name := by
  have hsome : (Command.internal name vs ps).name = some name := rfl
  unfold entryOf
  rw [hsome]
  split
  · rename_i heq
    cases heq
  · rename_i heq
    exact absurd (Option.some.inj heq) hname
  · rename_i heq
    cases heq
    rfl

end Dispatch

namespace Session

/-- What a handler is called with: the context, if it takes that, and the arguments. -/
def given (e : Entry) (arguments : List String) : List Argument :=
  (if e.passContext then [.context] else []) ++ arguments.map .text

/-- A handler of actions is called with what it is given, and then does its actions. -/
theorem callHandler_of_script {e : Entry} {body : List Action} (h : e.handler = .script body)
    (rerun reread : String → Shell Unit) (arguments : List String) :
    Dispatch.callHandler rerun reread e arguments = (do
      emit (.called e.name (given e arguments))
      Dispatch.runScript rerun reread e.passContext body) := by
  unfold Dispatch.callHandler given
  rw [h]
  cases e.passContext with
  | false => rfl
  | true => rfl

/-- A builtin command is called with the arguments. -/
theorem callHandler_of_builtin {e : Entry} {b : Builtin} {origin : Nat}
    (h : e.handler = .builtin b origin) (rerun reread : String → Shell Unit)
    (arguments : List String) :
    Dispatch.callHandler rerun reread e arguments = b.call origin arguments := by
  unfold Dispatch.callHandler
  rw [h]

/-- Where no alias dangles, the entry of a command is found if there is one. -/
theorem run_entryOf_of_noDangling {u : World} (hu : u.commands.NoDangling) (name : String)
    (vs ps : List String) : (Dispatch.entryOf (.internal name vs ps)).run u
      = .ok (u.commands.entryFor (.internal name vs ps)) u := by
  by_cases hname : name = ""
  · subst hname
    rfl
  · obtain ⟨found, hfound⟩ := hu.find_ok name
    have hentry : u.commands.entryFor (.internal name vs ps) = found := by
      show (if name = "" then none else (u.commands.find name).toOption.join) = found
      rw [if_neg hname, hfound]
      rfl
    rw [hentry, Dispatch.entryOf_internal hname, run_bind_ok (EStateM.run_get u)]
    show (ofExcept .danglingAlias (u.commands.find name)).run u = .ok found u
    rw [hfound]
    rfl

section

variable {w : World} {rerun reread : String → Shell Unit} {name : String} {vs ps : List String}

/-- A command whose entry is not found is unknown. -/
theorem run_dispatch_unknown (hentry : (Dispatch.entryOf (.internal name vs ps)).run w = .ok none w) :
    (Dispatch.dispatch rerun reread (.internal name vs ps)).run w
      = .error (.unknownCommand (some name)) w := by
  unfold Dispatch.dispatch
  exact run_bind_ok hentry _

/-- A known command is dispatched by announcing the call, making it and recording the command. -/
theorem run_dispatch {e : Entry} :
    let c := Command.internal name vs ps
    (Dispatch.entryOf c).run w = .ok (some e) w →
      (Dispatch.dispatch rerun reread c).run w
        = (Dispatch.callHandler rerun reread e c.fields.tail >>= fun value => do
            record c.text
            pure value).run (w.after (Dispatch.announce c e)) := by
  intro c hentry
  have hdispatch : Dispatch.dispatch rerun reread c
      = Dispatch.entryOf c >>= Dispatch.answer rerun reread c := Dispatch.dispatch_eq rfl
  rw [hdispatch, run_bind_ok hentry]
  exact run_bind_ok (Dispatch.run_announce c e w) _

end

/-! ## Executing -/

/-- The world in which a session has taken a line. -/
def taking (w : World) (line : String) : World :=
  { w with session := { w.session with name := some line } }

/-- The world in which a session has read its line. -/
def keeping (w : World) (cs : List Command) : World :=
  { w with session := { w.session with commands := some cs } }

section

variable {w u : World} {line : String} (h : Line.isBlank line = false)

include h

/-- **A line that is read** is given to a session by keeping its commands and running those for the host. -/
theorem run_setInput_of_read {cs : List Command}
    (hparse : (parse line).run (taking w line) = .ok cs u) :
    (setInput line).run w = (runSystemCommands cs).run (keeping u cs) := by
  have htake : (modify fun w => { w with session := { w.session with name := some line } } :
      Shell PUnit).run w = .ok ⟨⟩ (taking w line) := rfl
  have hkeep : (modify fun w => { w with session := { w.session with commands := some cs } } :
      Shell PUnit).run u = .ok ⟨⟩ (keeping u cs) := rfl
  rw [setInput, if_neg (Bool.eq_false_iff.mp h), run_bind_ok htake, run_bind_ok hparse]
  exact run_bind_ok hkeep _

/-- A line whose reading ends with a fault stays with the session, which keeps the commands that it has. -/
theorem run_setInput_of_unread {f : Fault} (hparse : (parse line).run (taking w line) = .error f u) :
    (setInput line).run w = .error f u := by
  have htake : (modify fun w => { w with session := { w.session with name := some line } } :
      Shell PUnit).run w = .ok ⟨⟩ (taking w line) := rfl
  rw [setInput, if_neg (Bool.eq_false_iff.mp h), run_bind_ok htake]
  exact run_bind_error hparse _

end

/-- A blank line is none. -/
theorem setInput_of_isBlank {line : String} (h : Line.isBlank line = true) : setInput line = pure () := by
  rw [setInput, if_pos h]

/-- **Executing** is to go through the commands of the session. -/
theorem run_executeWith (rerun : String → Shell Unit) (w : World) :
    (executeWith rerun).run w = (executeAll rerun (w.session.commands.getD [])).run w := by
  rw [executeWith, run_bind_ok (EStateM.run_get w)]
  cases w.session.commands with
  | none => rfl
  | some cs => rfl

/-- What is done before a command is dispatched: the module of its name is loaded. -/
def prepare (c : Command) : Shell Unit :=
  match c.name with
  | none => throw (.noAttribute "NoneType" "replace")
  | some name => do
    Loader.load name
    log .debug .session (name ++ ": arguments " ++ kindsText c)

/-- Dispatch a command, and remember whether its handler asked to exit. -/
def settle (rerun : String → Shell Unit) (c : Command) : Shell Unit := do
  let result ← Dispatch.dispatch rerun setInput c
  if result.isTrue then
    modify fun w => { w with session := { w.session with exitRequested := true } }

variable {rerun : String → Shell Unit}

/-- **Executing a command** is to prepare it and to settle it. -/
theorem executeOne_eq (c : Command) : executeOne rerun c = prepare c >>= fun _ => settle rerun c := by
  unfold executeOne prepare
  cases c.name with
  | none => rfl
  | some name =>
    dsimp only
    rw [bind_assoc]
    rfl

/-- A command that is not internal is passed over. -/
theorem executeAll_of_skipped {c : Command} (h : (c.isSystem || c.isEmpty) = true) (cs : List Command) :
    executeAll rerun (c :: cs) = executeAll rerun cs := by
  unfold executeAll
  simp only [h, Bool.not_true, Bool.false_eq_true, if_false]
  cases cs <;> rfl

/-- An internal command is executed, and then the others are. -/
theorem executeAll_of_kept {c : Command} (h : (c.isSystem || c.isEmpty) = false) (cs : List Command) :
    executeAll rerun (c :: cs) = executeOne rerun c >>= fun _ => executeAll rerun cs := by
  rw [executeAll]
  simp only [h, Bool.not_false, if_true]

/-- A dispatch that returns is settled by remembering whether the handler asked to exit. -/
theorem run_settle_of_ok {c : Command} {u v : World} {value : Json}
    (h : (Dispatch.dispatch rerun setInput c).run u = .ok value v) :
    (settle rerun c).run u = .ok () { v with
      session := { v.session with exitRequested := v.session.exitRequested || value.isTrue } } := by
  unfold settle
  rw [run_bind_ok h]
  cases value.isTrue with
  | true => simp
  | false => simp

end Session

end CommandShell
