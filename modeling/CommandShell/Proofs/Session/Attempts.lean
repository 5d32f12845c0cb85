import CommandShell.Proofs.Loader.Search
import CommandShell.Proofs.Session.Calls
import CommandShell.Proofs.Session.Trace

/-! # The line of a session and its commands

A session takes a line before it reads it. A reading that ends with a fault leaves the line there, beside
the commands of an older one. Which readings are begun during some calls, also by the handlers that these
come to call, is read off the run itself, world by world (`readings`). After any calls the line is that of
the last reading, and the commands are those of the last reading that came to an end
(`session_afterCalls`). So line and commands belong together exactly if the last reading came to an end;
`greet_called_for_other` is a run in which it did not. -/

namespace CommandShell.Session

open World

/-! ## Readings -/

/-- A reading of a line that is not blank. -/
structure Attempt where
  /-- The line. -/
  line : String
  /-- The world in which the reading began. -/
  world : World

/-- What the reading gave, unless it ended with a fault. -/
def Attempt.commands? (a : Attempt) : Option (List Command) :=
  match (parse a.line).run a.world with
  | .ok cs _ => some cs
  | .error _ _ => none

/-- Some readings, and those that follow if the action that began them gives a value. -/
def readingsThen {α : Type} (w : World) (a : Shell α) (as : List Attempt)
    (next : α → World → List Attempt) : List Attempt :=
  match a.run w with
  | .ok x w' => as ++ next x w'
  | .error _ _ => as

/-- The reading that is begun when a session is given a line. A blank line is not read. -/
def inputReadings (line : String) (w : World) : List Attempt :=
  if Line.isBlank line then [] else [⟨line, taking w line⟩]

section

variable (inner : String → World → List Attempt) (rerun : String → Shell Unit)

/-- The readings that a single action of a handler begins, when `inner` tells those of the lines that are
run. -/
def actionReadings (hasContext : Bool) (action : Action) (w : World) : List Attempt :=
  if hasContext && w.context.hasSession then
    match action with
    | .run line => inner line w
    | .setInput line => inputReadings line w
    | _ => []
  else []

/-- The readings that the actions of a handler begin. -/
def scriptReadings (hasContext : Bool) : List Action → World → List Attempt
  | [], _ => []
  | action :: rest, w =>
    readingsThen w (Dispatch.perform rerun setInput hasContext action)
      (actionReadings inner hasContext action w)
      fun value? u => if value?.isSome then [] else scriptReadings hasContext rest u

/-- The readings that the handler of an entry begins. -/
def handlerReadings (e : Entry) (arguments : List String) (w : World) : List Attempt :=
  match e.handler with
  | .builtin _ _ => []
  | .script body => scriptReadings inner rerun e.passContext body
      (w.emitted [.called e.name (given e arguments)])

/-- The readings that are begun when a command is dispatched. -/
def dispatchReadings (c : Command) (w : World) : List Attempt :=
  readingsThen w (Dispatch.entryOf c) [] fun e? u =>
    match e? with
    | none => []
    | some e => handlerReadings inner rerun e c.fields.tail (u.after (Dispatch.announce c e))

/-- The readings that are begun when some commands are executed. -/
def batchReadings : List Command → World → List Attempt
  | [], _ => []
  | c :: cs, w =>
    if c.isInternal then
      readingsThen w (executeOne rerun c)
        (readingsThen w (prepare c) [] fun _ => dispatchReadings inner rerun c)
        fun _ => batchReadings cs
    else batchReadings cs w

/-- The readings that are begun when the line that was read last is executed. -/
def executionReadings (w : World) : List Attempt :=
  batchReadings inner rerun (w.session.commands.getD []) w

end

/-- The readings that are begun when a line is run in which handlers nest at most so deep. -/
def lineReadings : Nat → String → World → List Attempt
  | 0, _, _ => []
  | depth + 1, line, w =>
    if Line.isBlank line then []
    else readingsThen w (setInput line) (inputReadings line w) fun _ =>
      executionReadings (lineReadings depth) (runNested depth)

/-- The readings that a call begins. -/
def Call.readings : Call → World → List Attempt
  | .setInput line => inputReadings line
  | .execute => executionReadings (lineReadings maxNesting) (runNested maxNesting)
  | .run line => lineReadings (maxNesting + 1) line
  | _ => fun _ => []

/-- The readings that are begun during some calls, oldest first. -/
def readings : List Call → World → List Attempt
  | [], _ => []
  | call :: calls, w => call.readings w ++ readings calls (w.after call.perform)

/-! ## What readings leave -/

/-- A session has the line of the last of some readings, and the commands of the last that gave some.
Where there is none it has what it had. -/
structure Reads (w : World) (as : List Attempt) (w' : World) : Prop where
  /-- The line is that of the last reading. -/
  name : w'.session.name = (as.getLast?.map Attempt.line).or w.session.name
  /-- The commands are those of the last reading that came to an end. -/
  commands : w'.session.commands
    = (as.filterMap Attempt.commands?).getLast?.or w.session.commands

/-- No readings leave name and commands. -/
theorem Reads.refl (w : World) : Reads w [] w := ⟨rfl, rfl⟩

/-- What some readings and then others leave. -/
theorem Reads.trans {u v w : World} {as bs : List Attempt} (h : Reads u as v) (h' : Reads v bs w) :
    Reads u (as ++ bs) w where
  name := by rw [h'.name, h.name, List.getLast?_append, Option.map_or, Option.or_assoc]
  commands := by
    rw [h'.commands, h.commands, List.filterMap_append, List.getLast?_append, Option.or_assoc]

/-- The session keeps its line and its commands. -/
def Kept (w w' : World) : Prop := Reads w [] w'

/-- A session that is the same has kept its name and commands. -/
theorem kept_of_session {w w' : World} (h : w'.session = w.session) : Kept w w' := by
  refine ⟨?_, ?_⟩
  · rw [h]
    rfl
  · rw [h]
    rfl

/-- Loading modules keeps name and commands, and so does what it is put together from. -/
theorem loading_kept : Shell.Frame.Loading Kept where
  refl := Reads.refl
  trans h h' := h.trans h'
  emitted _ _ := kept_of_session rfl
  registries _ _ := kept_of_session rfl
  attempted _ _ := kept_of_session rfl
  imports _ _ := kept_of_session rfl

/-- So does everything that leaves the session aside. -/
theorem kept_of_aside {α : Type} {a : Shell α} (h : Shell.Heeds Aside a) : Shell.Within Kept a :=
  h.within.mono fun h => kept_of_session h.session

/-- Loading modules leaves the session. -/
theorem loading_session : Shell.Frame.Loading fun w w' => w'.session = w.session where
  refl _ := rfl
  trans h h' := h'.trans h
  emitted _ _ := rfl
  registries _ _ := rfl
  attempted _ _ := rfl
  imports _ _ := rfl

/-- Reading a line leaves what the session knows. -/
theorem session_parse (line : String) (w : World) : (w.after (parse line)).session = w.session :=
  within_parse loading_session.toLogging (loading_session.within_loadAll false) line w

section

variable {α β : Type}

/-- An action leaves of the session what the readings leave that it begins. -/
def Follows (a : Shell α) (as : World → List Attempt) : Prop := ∀ w : World, Reads w (as w) (w.after a)

/-- An action that keeps line and commands begins no reading. -/
theorem follows_of_kept {a : Shell α} (h : Shell.Within Kept a) : Follows a fun _ => [] := h

/-- Readings follow each other as the actions do. -/
theorem Follows.bind {a : Shell α} {g : α → Shell β} {as : World → List Attempt}
    {next : α → World → List Attempt} (ha : Follows a as) (hg : ∀ x, Follows (g x) (next x)) :
    Follows (a >>= g) fun w => readingsThen w a (as w) next := by
  intro w
  have hfirst := ha w
  dsimp only
  unfold readingsThen
  cases hrun : a.run w with
  | ok x w' =>
    rw [after_of_ok hrun] at hfirst
    rw [after_bind_ok hrun]
    exact hfirst.trans (hg x w')
  | error f w' =>
    rw [after_of_error hrun] at hfirst
    rw [after_of_error (Shell.run_bind_error hrun g)]
    exact hfirst

/-- What keeps line and commands behind an action begins no further reading. -/
theorem Follows.bind_kept {a : Shell α} {g : α → Shell β} {as : World → List Attempt}
    (ha : Follows a as) (hg : ∀ x, Shell.Within Kept (g x)) : Follows (a >>= g) as := by
  intro w
  have hbind := ha.bind (fun x => follows_of_kept (hg x)) w
  have hsame : readingsThen w a (as w) (fun _ _ => []) = as w := by
    unfold readingsThen
    cases a.run w with
    | ok x w' => exact List.append_nil _
    | error f w' => rfl
  rw [← hsame]
  exact hbind

/-- Behind an action that returns in any world and keeps line and commands, the readings are those of what
follows. -/
theorem Follows.of_kept_bind {a : Shell Unit} {g : Shell β} {as : World → List Attempt}
    (hrun : ∀ w, a.run w = .ok () (w.after a)) (ha : Shell.Within Kept a) (hg : Follows g as) :
    Follows (a >>= fun _ => g) fun w => as (w.after a) := by
  intro w
  rw [after_bind_ok (hrun w)]
  exact (ha w).trans (hg _)

end

/-! ## Calls -/

/-- Storing an entry keeps name and commands. -/
theorem kept_record (entry : String) : Shell.Within Kept (record entry) :=
  kept_of_aside (aside_record entry)

/-- Running commands on the host keeps name and commands. -/
theorem kept_runSystemCommands (cs : List Command) : Shell.Within Kept (runSystemCommands cs) :=
  within_runSystemCommands loading_kept.toReporting kept_record cs

/-- **Giving a session a line** begins one reading, unless the line is blank. -/
theorem follows_setInput (line : String) : Follows (setInput line) (inputReadings line) := by
  intro w
  unfold inputReadings
  cases hline : Line.isBlank line with
  | true =>
    rw [setInput_of_isBlank hline]
    exact .refl w
  | false =>
    have hsession := session_parse line (taking w line)
    simp only [if_neg Bool.false_ne_true]
    cases hparse : (parse line).run (taking w line) with
    | ok cs u =>
      have hcommands : Attempt.commands? ⟨line, taking w line⟩ = some cs := by
        rw [Attempt.commands?, hparse]
      rw [after_of_ok hparse] at hsession
      have hread : Reads w [⟨line, taking w line⟩] (keeping u cs) := by
        refine ⟨?_, ?_⟩
        · simp only [keeping, hsession]
          rfl
        · rw [List.filterMap_cons_some hcommands]
          rfl
      -- Running the commands for the host leaves line and commands.
      rw [World.after, run_setInput_of_read hline hparse]
      exact hread.trans (kept_runSystemCommands cs _)
    | error f u =>
      have hcommands : Attempt.commands? ⟨line, taking w line⟩ = none := by
        rw [Attempt.commands?, hparse]
      rw [after_of_error hparse] at hsession
      rw [after_of_error (run_setInput_of_unread hline hparse)]
      refine ⟨?_, ?_⟩
      · rw [hsession]
        rfl
      · rw [List.filterMap_cons_none hcommands, hsession]
        rfl

/-- A handler acts on the session only if it was given the context and there is a session. -/
theorem follows_withSession {hasContext : Bool} {a : Shell Unit} {as : World → List Attempt}
    (ha : Follows a as) : Follows (Dispatch.withSession hasContext a)
      fun w => if hasContext && w.context.hasSession then as w else [] := by
  intro w
  cases hasContext with
  | false => exact .refl w
  | true =>
    show Reads w (if w.context.hasSession then as w else []) (w.after (get >>= fun w' : World =>
      if w'.context.hasSession then a else throw .noSession))
    rw [after_bind_ok (EStateM.run_get w)]
    split
    · exact ha w
    · exact .refl w

section

variable {inner : String → World → List Attempt} {rerun : String → Shell Unit}
  (hinner : ∀ line, Follows (rerun line) (inner line))

include hinner

/-- **An action of a handler** begins the readings of the line that it runs or gives to the session. -/
theorem follows_perform (hasContext : Bool) (action : Action) :
    Follows (Dispatch.perform rerun setInput hasContext action)
      (actionReadings inner hasContext action) := by
  have hR := loading_kept
  have hsession {a : Shell Unit} {as : World → List Attempt} (ha : Follows a as) :
      Follows (Dispatch.perform.done (Dispatch.withSession hasContext a))
        fun w => if hasContext && w.context.hasSession then as w else [] :=
    (follows_withSession ha).bind_kept fun _ => hR.within_pure _
  have hneed {a : Shell Unit} (part : String) (ha : Shell.Within Kept a) :
      Shell.Within Kept (Dispatch.perform.done (Dispatch.needContext hasContext part a)) := by
    refine hR.within_bind ?_ fun _ => hR.within_pure _
    unfold Dispatch.needContext
    split
    · exact ha
    · exact hR.within_throw _
  have hnone (h : Shell.Within Kept (Dispatch.perform rerun setInput hasContext action)) :
      Follows (Dispatch.perform rerun setInput hasContext action)
        fun w => if hasContext && w.context.hasSession then [] else [] := by
    simp only [ite_self]
    exact follows_of_kept h
  -- Two actions begin readings; all others keep line and commands.
  cases action with
  | run line => exact hsession (hinner line)
  | setInput line => exact hsession (follows_setInput line)
  | unknown name => exact hnone (hR.within_throw _)
  | raise r => exact hnone (hR.within_throw _)
  | finish value => exact hnone (hR.within_pure _)
  | print text => exact hnone (hR.within_bind (hR.within_emit _) fun _ => hR.within_pure _)
  | define d body =>
    exact hnone (hneed _ (hR.within_bind hR.within_get fun w => hR.within_register _ _))
  | undefine name =>
    exact hnone (hneed _ (hR.within_bind hR.within_get fun w => hR.within_unregister _ _))
  | record entry => exact hnone (hneed _ (kept_record entry))
  | load name =>
    refine hnone (hneed _ (hR.within_bind hR.within_get fun w => ?_))
    split
    · exact hR.within_load name
    · exact hR.within_throw _

/-- **A handler** begins the readings of its actions. -/
theorem follows_runScript (hasContext : Bool) (body : List Action) :
    Follows (Dispatch.runScript rerun setInput hasContext body)
      (scriptReadings inner rerun hasContext body) := by
  induction body with
  | nil => exact .refl
  | cons action rest ih =>
    rw [Dispatch.runScript_cons]
    refine (follows_perform hinner hasContext action).bind fun value? => ?_
    cases value? with
    | none => exact ih
    | some value => exact .refl

/-- The readings of a handler are told by its actions. -/
theorem follows_callHandler (e : Entry) (arguments : List String) :
    Follows (Dispatch.callHandler rerun setInput e arguments)
      (handlerReadings inner rerun e arguments) := by
  have hR := loading_kept
  unfold handlerReadings
  cases hhandler : e.handler with
  | builtin b origin =>
    rw [callHandler_of_builtin hhandler]
    refine follows_of_kept ?_
    -- Only the help loads modules; no other builtin touches the session.
    by_cases hb : b = .help
    · subst hb
      have hload : Shell.Heeds Kept (Loader.loadAll false) :=
        ⟨hR.within_loadAll false, Loader.faults_loadAll false⟩
      exact hR.within_bind (Builtin.heeds_showHelp hR.toPrinting hload).within fun _ => hR.within_pure _
    · exact kept_of_aside (Builtin.aside_call hb origin arguments)
  | script body =>
    rw [callHandler_of_script hhandler]
    exact .of_kept_bind (fun _ => rfl) (hR.within_emit _)
      (follows_runScript hinner e.passContext body)

/-- **Dispatching a command** begins the readings of the handler of its entry. -/
theorem follows_dispatch {c : Command} (hc : c.isEmpty = false) :
    Follows (Dispatch.dispatch rerun setInput c) (dispatchReadings inner rerun c) := by
  have hR := loading_kept
  have hentry : Shell.Within Kept (Dispatch.entryOf c) := by
    unfold Dispatch.entryOf
    split
    · exact hR.within_pure _
    · exact hR.within_pure _
    · exact hR.within_bind hR.within_get fun w => (Shell.heeds_lookup hR.toLogging _ _).within
  rw [Dispatch.dispatch_eq hc]
  refine (follows_of_kept hentry).bind fun e? => ?_
  cases e? with
  | none => exact .refl
  | some e =>
    refine .of_kept_bind (Dispatch.run_announce c e) (hR.within_log _ _ _) ?_
    exact (follows_callHandler hinner e _).bind_kept fun _ =>
      hR.within_bind (kept_record _) fun _ => hR.within_pure _

/-- **Executing a command** begins the readings of its dispatch. -/
theorem follows_executeOne {c : Command} (hc : c.isEmpty = false) : Follows (executeOne rerun c) fun w =>
    readingsThen w (prepare c) [] fun _ => dispatchReadings inner rerun c := by
  have hR := loading_kept
  have hprepare : Shell.Within Kept (prepare c) := by
    unfold prepare
    split
    · exact hR.within_throw _
    · exact hR.within_bind (hR.within_load _) fun _ => hR.within_log _ _ _
  have hsettle : Follows (settle rerun c) (dispatchReadings inner rerun c) := by
    refine (follows_dispatch hinner hc).bind_kept fun result => ?_
    -- Whether the handler asked to exit is neither line nor commands.
    split
    · exact fun _ => ⟨rfl, rfl⟩
    · exact hR.within_pure _
  rw [executeOne_eq]
  exact (follows_of_kept hprepare).bind fun _ => hsettle

/-- **Executing some commands** begins the readings of their handlers. -/
theorem follows_executeAll (cs : List Command) :
    Follows (executeAll rerun cs) (batchReadings inner rerun cs) := by
  induction cs with
  | nil => exact .refl
  | cons c cs ih =>
    intro w
    cases hskip : c.isSystem || c.isEmpty with
    | true =>
      rw [batchReadings, if_neg (Command.not_isInternal hskip), executeAll_of_skipped hskip]
      exact ih w
    | false =>
      have hempty : c.isEmpty = false := (Bool.or_eq_false_iff.mp hskip).2
      rw [batchReadings, if_pos (Command.isInternal_of_kept hskip), executeAll_of_kept hskip]
      exact ((follows_executeOne hinner hempty).bind fun _ => ih) w

/-- The readings of an execution are told by its commands, one by one. -/
theorem follows_executeWith : Follows (executeWith rerun) (executionReadings inner rerun) := by
  intro w
  rw [World.after, run_executeWith]
  exact follows_executeAll hinner _ w

end

/-- **Running a line** begins its own reading and then those of its handlers, however deep these run lines
within it. -/
theorem follows_runNested (depth : Nat) (line : String) :
    Follows (runNested depth line) (lineReadings depth line) := by
  -- The induction is on how deep lines may still run within each other.
  induction depth generalizing line with
  | zero => exact .refl
  | succ depth ih =>
    unfold runNested runWith
    cases hline : Line.isBlank line with
    | true =>
      intro w
      rw [lineReadings, if_pos hline]
      exact .refl w
    | false =>
      intro w
      rw [lineReadings, if_neg (Bool.eq_false_iff.mp hline)]
      exact ((follows_setInput line).bind fun _ => follows_executeWith ih) w

/-- **A call** leaves of the session what its readings leave. -/
theorem follows_perform_call (call : Call) : Follows call.perform call.readings := by
  have hR := loading_kept
  cases call with
  | setInput line => exact follows_setInput line
  | execute => exact follows_executeWith (follows_runNested maxNesting)
  | run line => exact follows_runNested _ line
  | isInternal name =>
    have hinternal := within_isInternal hR.toLogging (hR.within_loadAll false) name
    exact hR.within_bind hinternal fun _ => hR.within_pure _
  | load name => exact hR.within_load name
  | loadAll verbose => exact hR.within_bind (hR.within_loadAll verbose) fun _ => hR.within_pure _
  | register d handler => exact hR.within_bind hR.within_get fun w => hR.within_register _ _
  | add entry => exact hR.within_bind hR.within_get fun w => hR.within_add _ _
  | unregister name => exact hR.within_bind hR.within_get fun w => hR.within_unregister _ _

/-- **Some calls** leave of the session what their readings leave. -/
theorem reads_afterCalls (calls : List Call) (w : World) :
    Reads w (readings calls w) (w.afterCalls calls) := by
  induction calls generalizing w with
  | nil => exact .refl w
  | cons call calls ih => exact (follows_perform_call call w).trans (ih _)

/-! ## The line and the commands -/

/-- The commands of a session are those of its line: what a reading of the line gave. -/
def Belongs (s : Session) : Option Attempt → Prop
  | none => s.name = none ∧ s.commands = none
  | some a => s.name = some a.line ∧ a.commands?.isSome ∧ s.commands = a.commands?

/-- If the last reading did not come to an end, the commands are older than the line. -/
theorem belongs_iff {s : Session} {as : List Attempt} (hname : s.name = as.getLast?.map Attempt.line)
    (hcommands : s.commands = (as.filterMap Attempt.commands?).getLast?) :
    Belongs s as.getLast? ↔ ∀ a ∈ as.getLast?, a.commands?.isSome := by
  -- Only the last reading matters, so the list is taken apart from behind.
  induction as using List.reverseRecOn with
  | nil =>
    have h : Belongs s none := ⟨hname, hcommands⟩
    simpa using h
  | append_singleton as a _ =>
    rw [List.getLast?_concat] at hname ⊢
    have hlast (hsome : a.commands?.isSome) : s.commands = a.commands? := by
      obtain ⟨cs, hcs⟩ := Option.isSome_iff_exists.mp hsome
      rw [hcommands, List.filterMap_append, List.filterMap_cons_some hcs, hcs]
      exact List.getLast?_concat
    constructor
    · rintro ⟨_, hsome, _⟩ b hb
      rw [Option.mem_some.mp hb] at hsome
      exact hsome
    · intro h
      have hsome := h a rfl
      exact ⟨hname, hsome, hlast hsome⟩

/-- **The line of a session and its commands.** After any calls on a fresh session, the line is that of
the last reading that was begun, and the commands are those of the last reading that came to an end.
They belong together if and only if these are the same reading; what is executed is the commands. -/
theorem session_afterCalls (w : World) (calls : List Call) :
    let v := { w with session := fresh }
    let u := v.afterCalls calls
    let as := readings calls v
    u.session.name = as.getLast?.map Attempt.line ∧
      u.session.commands = (as.filterMap Attempt.commands?).getLast? ∧
      (Belongs u.session as.getLast? ↔ ∀ a ∈ as.getLast?, a.commands?.isSome) ∧
      execute.run u = match (as.filterMap Attempt.commands?).getLast? with
        | none => .ok () u
        | some cs => (executeAll (runNested maxNesting) cs).run u := by
  intro v u as
  have hreads : Reads v as u := reads_afterCalls calls v
  have hname : u.session.name = as.getLast?.map Attempt.line := hreads.name.trans Option.or_none
  have hcommands : u.session.commands = (as.filterMap Attempt.commands?).getLast? :=
    hreads.commands.trans Option.or_none
  refine ⟨hname, hcommands, belongs_iff hname hcommands, ?_⟩
  rw [execute, run_executeWith, ← hcommands]
  cases u.session.commands with
  | none => rfl
  | some cs => rfl

/-! ## A reading that does not come to an end -/

/-- What a module raises to escape from the shell. -/
def escape : Raise := ⟨"SystemExit", .escaping, none⟩

/-- A world with one command, and with one module, which escapes from its import. -/
def escapingWorld : World :=
  { (default : World) with
    files := sampleTree (.script [.raise escape])
    registries := ⟨⟨[(.global, ⟨⟨[("greet", sampleEntry)]⟩, {}⟩)]⟩, {}, 1⟩
    loader := ⟨[sampleDirectory], .global, []⟩
    context := ⟨.global, true, true⟩
    session := fresh
    classifier := .session }

section

variable {w : World} (hfiles : w.files = escapingWorld.files) (hloader : w.loader = escapingWorld.loader)

include hfiles hloader

/-- Loading all modules meets the module that ends the program, and nothing is marked. -/
theorem run_loadAll_escaping : (Loader.loadAll false).run w
    = .error (.raised escape) (w.emitted [.imported "extra"]) := by
  have himport : (importFile sampleFile).run w
      = .error (.raised escape) (w.emitted [.imported "extra"]) := by
    have hread : w.files.read w.cwd "/cmds/extra/__init__.py"
        = .ok (["cmds", "extra", "__init__.py"], .code (.script [.raise escape])) := by
      rw [hfiles]
      exact read_sampleTree _ _
    rw [run_importFile_of_read isRooted_sampleFile rfl hread]
    rfl
  have hmodule : (Loader.importModule "extra" sampleFile).run w
      = .error (.raised escape) (w.emitted [.imported "extra"]) := by
    have hredirected : (Shell.redirected .global .global (importFile sampleFile)).run w
        = .error (.raised escape) (w.emitted [.imported "extra"]) :=
      Shell.run_redirected_error .global .global himport
    unfold Loader.importModule
    rw [Shell.run_bind_ok (EStateM.run_get w), hloader]
    exact Shell.run_bind_error hredirected _
  unfold Loader.loadAll
  rw [Shell.run_bind_ok (run_index_sample hfiles (by rw [hloader]; rfl))]
  show (Loader.loadFound false [("extra", sampleFile)]).run w = _
  rw [Loader.loadFound, Shell.run_bind_ok (EStateM.run_get w), hloader]
  exact Shell.run_bind_error hmodule _

/-- The only module has another name. -/
theorem run_load_greet : (Loader.load "greet").run w = .ok ()
    (w.emitted (w.reports .debug .loader ("No command module for " ++ Text.quoted "greet"))) := by
  unfold Loader.load
  rw [Shell.run_bind_ok (EStateM.run_get w), hloader]
  have hindex : Loader.index.run w = .ok ⟨[("extra", sampleFile)]⟩ w :=
    run_index_sample hfiles (by rw [hloader]; rfl)
  exact (Shell.run_bind_ok hindex _).trans (Shell.run_log _ _ _ w)

variable (hregistries : w.registries = escapingWorld.registries)
  (hcontext : w.context = escapingWorld.context)

include hregistries hcontext

/-- Parsing a line that asks for modules ends with what the module raises. -/
theorem run_parse_escaping (hclassifier : w.classifier = .session) :
    (parse "other").run w = .error (.raised escape) (w.emitted [.imported "extra"]) := by
  have hregistered : (isRegistered "other").run w = .ok false w := by
    unfold isRegistered Shell.lookup
    simp only [bind_assoc]
    rw [Shell.run_bind_ok (EStateM.run_get w), Shell.run_bind_ok (EStateM.run_get w), hregistries,
      hcontext]
    rfl
  have havailable : Loader.available.run w = .ok ["extra"] w := by
    unfold Loader.available
    rw [Shell.run_bind_ok (run_index_sample hfiles (by rw [hloader]; rfl))]
    simp [Table.keys]
  have hinternal : (classify "other").run w
      = .error (.raised escape) (w.emitted [.imported "extra"]) := by
    unfold classify
    rw [Shell.run_bind_ok (EStateM.run_get w), hclassifier]
    refine (Shell.run_bind_ok hregistered _).trans ?_
    refine (Shell.run_bind_ok havailable _).trans ?_
    exact Shell.run_bind_error (run_loadAll_escaping hfiles hloader) _
  have hread : (Line.read classify "other".toList).run w
      = .error (.raised escape) (w.emitted [.imported "extra"]) := by
    have hsegment : (Line.readSegment classify "other".toList).run w
        = .error (.raised escape) (w.emitted [.imported "extra"]) :=
      Shell.run_bind_error hinternal _
    exact Shell.run_bind_error hsegment _
  unfold parse
  refine Shell.run_bind_error ?_ _
  rw [Shell.run_recover_error (Shell.run_bind_error hread _)]
  rfl

end

/-- The world in which `greet` was read. -/
def greetRead : World :=
  keeping ((taking escapingWorld "greet").emitted [.log .debug .parser
    ("Parsed " ++ Text.quoted "greet" ++ " into " ++ toString 1 ++ " command(s)")])
    [.internal "greet" [] []]

/-- The first line is read without asking for modules. -/
theorem after_setInput_greet : escapingWorld.after (setInput "greet") = greetRead := rfl

/-- The world in which the reading of `other` ended with a fault. -/
def otherEscaped : World := (taking greetRead "other").emitted [.imported "extra"]

/-- The second line is taken, and its parse ends with what the module raises. -/
theorem run_parse_other :
    (parse "other").run (taking greetRead "other") = .error (.raised escape) otherEscaped :=
  run_parse_escaping rfl rfl rfl rfl rfl

/-- An execution calls the command of the first line. -/
theorem called_after_execute : .called "greet" [] ∈ (otherEscaped.after execute).trace := by
  have hload := run_load_greet (w := otherEscaped) rfl rfl
  have hone : (executeOne (runNested maxNesting) (.internal "greet" [] [])).run otherEscaped
      = .ok () _ := (Shell.run_bind_ok hload _).trans rfl
  have hexecute : execute.run otherEscaped = .ok () _ := Shell.run_bind_ok hone _
  rw [after_of_ok hexecute]
  decide

/-- **A reading that escapes.** The line `greet` is read, and then the reading of `other` ends with a
fault. The session then has the line `other` and the commands of `greet`, and executing it calls
`greet`. -/
theorem greet_called_for_other :
    (escapingWorld.afterCalls [.setInput "greet", .setInput "other"]).session
        = ⟨some "other", some [.internal "greet" [] []], false⟩ ∧
      (∃ w, (parse "other").run (taking (escapingWorld.afterCalls [.setInput "greet"]) "other")
        = .error (.raised escape) w) ∧
      .called "greet" [] ∈
        (escapingWorld.afterCalls [.setInput "greet", .setInput "other", .execute]).trace := by
  have hother : greetRead.after (setInput "other") = otherEscaped :=
    after_of_error (run_setInput_of_unread (by decide) run_parse_other)
  simp only [afterCalls_cons, afterCalls_nil, Call.perform, after_setInput_greet, hother]
  exact ⟨rfl, ⟨_, run_parse_other⟩, called_after_execute⟩

end CommandShell.Session
