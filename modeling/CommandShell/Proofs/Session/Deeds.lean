import CommandShell.Proofs.Session.Routine

/-! # What a session does, dispatch by dispatch

What running a line does is a list of **deeds** (`Session.lineDeeds`): events that reach the outside, and
dispatches of commands, each with the deeds of its handler, among them those of the lines that the handler
runs. The deeds are read off the run itself, world by world. They account for the run
(`Session.tells_runNested`): the events that come to the trace are those of the deeds in their order, a
dispatch that returns being recorded behind all that its handler does; a history in memory grows by the
entries among them; and the shell is to exit afterwards if it was before or if a dispatch that returned, at
any depth, returned so. -/

namespace CommandShell

open Shell

/-- Something that a session does: an event that is no report, or the dispatch of a command with what its
handler does and the value that it returns, unless it ends with a fault. -/
inductive Deed
  | event (e : Event)
  | dispatched (c : Command) (within : List Deed) (value? : Option Json)

namespace Deed

mutual

/-- The events of a deed. A dispatch that returns is recorded behind what its handler does. -/
def told : Deed → List Event
  | .event e => [e]
  | .dispatched c within value? => events within ++ (value?.map fun _ => .recorded c.text).toList

/-- The events of some deeds, in order. -/
def events : List Deed → List Event
  | [] => []
  | d :: ds => d.told ++ events ds

end

mutual

/-- Whether a dispatch, the deed itself or one within it, returned that the shell is to exit. -/
def asks : Deed → Bool
  | .event _ => false
  | .dispatched _ within value? => exits within || value?.any Json.isTrue

/-- Whether a dispatch among some deeds, at any depth, returned that the shell is to exit. -/
def exits : List Deed → Bool
  | [] => false
  | d :: ds => d.asks || exits ds

end

/-- The command that is dispatched and what the dispatch returns. -/
def dispatch? : Deed → Option (Command × Option Json)
  | .event _ => none
  | .dispatched c _ value? => some (c, value?)

/-- The events of deeds come one after the other. -/
@[simp] theorem events_append (ds ds' : List Deed) : events (ds ++ ds') = events ds ++ events ds' := by
  induction ds with
  | nil => rfl
  | cons d ds ih => rw [List.cons_append, events, events, ih, List.append_assoc]

/-- Some deeds ask to exit if their first part or their second does. -/
@[simp] theorem exits_append (ds ds' : List Deed) : exits (ds ++ ds') = (exits ds || exits ds') := by
  induction ds with
  | nil => rfl
  | cons d ds ih => rw [List.cons_append, exits, exits, ih, Bool.or_assoc]

/-- Events that are deeds are their own events. -/
@[simp] theorem events_map_event (es : List Event) : events (es.map event) = es := by
  induction es with
  | nil => rfl
  | cons e es ih => rw [List.map_cons, events, ih]; rfl

/-- Events alone never ask to exit. -/
@[simp] theorem exits_map_event (es : List Event) : exits (es.map event) = false := by
  induction es with
  | nil => rfl
  | cons e es ih => rw [List.map_cons, exits, ih]; rfl

end Deed

/-! ## Accounts -/

namespace World

/-- The events that reached the outside, but for reports. -/
def events (w : World) : List Event := w.trace.filter fun e => !e.isReport

/-- Some deeds account for what happened between two worlds. -/
structure Accounts (w : World) (ds : List Deed) (w' : World) : Prop where
  /-- The events of the deeds came to the trace. -/
  events : w'.events = w.events ++ Deed.events ds
  /-- The entries among them came to a history in memory. -/
  history : ∀ kept, w.history = .memory kept →
    w'.history = .memory (kept ++ (Deed.events ds).filterMap Event.entry?)
  /-- The shell is to exit if it was before, or if the deeds ask for it. -/
  exit : w'.session.exitRequested = (w.session.exitRequested || Deed.exits ds)

/-- The events that an action brings to the trace, but for reports. -/
def told {α : Type} (w : World) (a : Shell α) : List Deed :=
  ((w.after a).events.drop w.events.length).map .event

/-- Some deeds, and those that follow if the action that did them gives a value. -/
def deedsThen {α : Type} (w : World) (a : Shell α) (ds : List Deed) (next : α → World → List Deed) :
    List Deed :=
  match a.run w with
  | .ok x w' => ds ++ next x w'
  | .error _ _ => ds

section

variable {α : Type} {a : Shell α} {w w' : World}

/-- What follows comes behind the deeds of an action that gives something. -/
theorem deedsThen_of_ok {x : α} (h : a.run w = .ok x w') (ds : List Deed)
    (next : α → World → List Deed) : w.deedsThen a ds next = ds ++ next x w' := by
  rw [deedsThen, h]

/-- Nothing follows an action that ends with a fault. -/
theorem deedsThen_of_error {f : Fault} (h : a.run w = .error f w') (ds : List Deed)
    (next : α → World → List Deed) : w.deedsThen a ds next = ds := by
  rw [deedsThen, h]

end

variable {u v w w' : World} {ds ds' : List Deed}

/-- No deeds account for a world as it is. -/
theorem Accounts.refl (w : World) : w.Accounts [] w :=
  ⟨(List.append_nil _).symm, fun kept h => by simpa [Deed.events] using h, (Bool.or_false _).symm⟩

/-- Deeds account for what happened first and what happened then. -/
theorem Accounts.trans (h : u.Accounts ds v) (h' : v.Accounts ds' w) : u.Accounts (ds ++ ds') w where
  events := by rw [h'.events, h.events, Deed.events_append, List.append_assoc]
  history kept hkept := by
    rw [h'.history _ (h.history kept hkept), Deed.events_append, List.filterMap_append,
      List.append_assoc]
  exit := by rw [h'.exit, h.exit, Deed.exits_append, Bool.or_assoc]

/-- A report adds no entry. -/
theorem filterMap_entry?_filter (es : List Event) :
    (es.filter fun e => !e.isReport).filterMap Event.entry? = es.filterMap Event.entry? := by
  rw [List.filterMap_filter]
  congr
  funext e
  cases e <;> rfl

/-- What came to the trace accounts for an action that does nothing else. -/
theorem Grew.accounts (h : w.Grew w') :
    w.Accounts ((w'.events.drop w.events.length).map .event) w' := by
  obtain ⟨hexit, es, htrace, hhistory⟩ := h
  have hevents : w'.events = w.events ++ es.filter fun e => !e.isReport := by
    rw [World.events, htrace, List.filter_append]
    rfl
  have hdrop : w'.events.drop w.events.length = es.filter fun e => !e.isReport := by
    rw [hevents, List.drop_left]
  rw [hdrop]
  refine ⟨?_, fun kept hkept => ?_, ?_⟩
  · rw [Deed.events_map_event, hevents]
  · rw [Deed.events_map_event, filterMap_entry?_filter, hhistory kept hkept]
  · rw [Deed.exits_map_event, Bool.or_false, hexit]

end World

namespace Shell

variable {α β : Type}

/-- Deeds that depend on the world account for an action. -/
def Tells (a : Shell α) (ds : World → List Deed) : Prop :=
  ∀ w : World, w.Accounts (ds w) (w.after a)

/-- What only gives something does nothing. -/
theorem tells_pure (x : α) : Tells (pure x : Shell α) fun _ => [] := World.Accounts.refl

/-- A fault alone does nothing. -/
theorem tells_throw (f : Fault) : Tells (throw f : Shell α) fun _ => [] := World.Accounts.refl

/-- An action that only adds to trace and history is told by the events that it brings. -/
theorem tells_told {a : Shell α} (h : Within World.Grew a) : Tells a fun w => w.told a :=
  fun w => (h w).accounts

/-- The deeds of two actions are those of the first and, where it gives something, those of the second. -/
theorem tells_bind {a : Shell α} {g : α → Shell β} {ds : World → List Deed}
    {next : α → World → List Deed} (ha : Tells a ds) (hg : ∀ x, Tells (g x) (next x)) :
    Tells (a >>= g) fun w => w.deedsThen a (ds w) next := by
  intro w
  have hfirst := ha w
  show w.Accounts (w.deedsThen a (ds w) next) _
  cases hrun : a.run w with
  | ok x w' =>
    rw [World.after_of_ok hrun] at hfirst
    rw [World.after_bind_ok hrun, World.deedsThen_of_ok hrun]
    exact hfirst.trans (hg x w')
  | error f w' =>
    rw [World.after_of_error hrun] at hfirst
    rw [World.after_of_error (run_bind_error hrun g), World.deedsThen_of_error hrun]
    exact hfirst

end Shell

/-! ## Recording -/

/-- The deed of recording an entry behind an action, which is none if that ends with a fault. -/
def World.recorded {α : Type} (w : World) (entry : String) (a : Shell α) : List Deed :=
  ((w.outcome a).toOption.map fun _ => .event (.recorded entry)).toList

/-- An action that gives something is followed by the deed of recording. -/
theorem World.recorded_of_ok {α : Type} {w w' : World} {a : Shell α} {x : α}
    (h : a.run w = .ok x w') (entry : String) : w.recorded entry a = [.event (.recorded entry)] := by
  rw [recorded, outcome_of_ok h]
  rfl

/-- One that ends with a fault is not. -/
theorem World.recorded_of_error {α : Type} {w w' : World} {a : Shell α} {f : Fault}
    (h : a.run w = .error f w') (entry : String) : w.recorded entry a = [] := by
  rw [recorded, outcome_of_error h]
  rfl

/-- Behind an action that gives a value it depends on the next action whether an entry is recorded. -/
theorem World.recorded_bind_ok {α β : Type} {w w' : World} {a : Shell α} {x : α}
    (h : a.run w = .ok x w') (g : α → Shell β) (entry : String) :
    w.recorded entry (a >>= g) = w'.recorded entry (g x) := by
  rw [recorded, outcome_bind_ok h]
  rfl

/-- What is logged needs no account. -/
theorem World.accounts_reports (w : World) (level : Level) (source : LogSource) (message : String) :
    w.Accounts [] (w.emitted (w.reports level source message)) := by
  refine ⟨?_, fun kept hkept => ?_, (Bool.or_false _).symm⟩
  · rw [World.events, World.trace_emitted, List.filter_append, filter_reports]
    rfl
  · rw [Deed.events, List.filterMap_nil, List.append_nil]
    exact hkept

/-- Logging is no deed. -/
theorem tells_log (level : Level) (source : LogSource) (message : String) :
    Tells (log level source message) fun _ => [] := by
  intro w
  rw [World.after_of_ok (run_log level source message w)]
  exact w.accounts_reports level source message

/-- **Recording an entry** is told by the entry, unless it fails. -/
theorem tells_record (entry : String) : Tells (record entry) fun w => w.recorded entry (record entry) := by
  intro w
  show w.Accounts (w.recorded entry (record entry)) _
  let w₁ := w.emitted (w.reports .debug .history ("History += " ++ Text.quoted entry))
  have hreported : w.Accounts [] w₁ := w.accounts_reports _ _ _
  have hevents (w₂ : World) (h : w₂.trace = w₁.trace) :
      (w₂.emitted [.recorded entry]).events = w₁.events ++ [.recorded entry] := by
    rw [World.events, World.trace_emitted, h, List.filter_append]
    rfl
  -- In memory an entry is always recorded, in a file unless it cannot be written.
  cases hhistory : w.history with
  | memory es =>
    have hrun := run_record_of_memory hhistory entry
    rw [World.recorded_of_ok hrun, World.after_of_ok hrun]
    refine hreported.trans ⟨hevents w₁ rfl, fun kept hkept => ?_, (Bool.or_false _).symm⟩
    cases hhistory.symm.trans hkept
    rfl
  | file path =>
    have hrun := run_record_of_file hhistory entry
    obtain ⟨f, hf⟩ | ⟨name, files, -, -, happend⟩ := Files.change_cases path
      (fun t cwd p => t.write cwd p fun old => .bytes ((old.map Files.contentBytes).getD [] ++
        HistoryFormat.written w.time entry)) w₁
    · have hfails := hrun.trans (run_bind_error hf _)
      rw [World.recorded_of_error hfails, World.after_of_error hfails]
      exact hreported
    · have hsucceeds := hrun.trans (run_bind_ok happend _)
      rw [run_emit] at hsucceeds
      rw [World.recorded_of_ok hsucceeds, World.after_of_ok hsucceeds]
      exact hreported.trans ⟨hevents { w₁ with files } rfl,
        fun kept hkept => (nomatch hhistory.symm.trans hkept), (Bool.or_false _).symm⟩

/-- Whatever comes before, the entry that is recorded last is told last. -/
theorem tells_bind_recorded {α β : Type} {a : Shell α} {g : α → Shell β} {ds : World → List Deed}
    {next : α → World → List Deed} {entry : String} (ha : Tells a ds)
    (hg : ∀ x, Tells (g x) fun w => next x w ++ w.recorded entry (g x)) :
    Tells (a >>= g) fun w => w.deedsThen a (ds w) next ++ w.recorded entry (a >>= g) := by
  intro w
  have hfirst := ha w
  show w.Accounts (w.deedsThen a (ds w) next ++ w.recorded entry (a >>= g)) _
  cases hrun : a.run w with
  | ok x w' =>
    rw [World.after_of_ok hrun] at hfirst
    rw [World.after_bind_ok hrun, World.deedsThen_of_ok hrun, World.recorded_bind_ok hrun,
      List.append_assoc]
    exact hfirst.trans (hg x w')
  | error f w' =>
    have hfails := run_bind_error hrun g
    rw [World.after_of_error hrun] at hfirst
    rw [World.after_of_error hfails, World.deedsThen_of_error hrun, World.recorded_of_error hfails,
      List.append_nil]
    exact hfirst

/-- An action that is recorded if it gives a value. -/
theorem tells_recording {α : Type} {a : Shell α} {ds : World → List Deed} (ha : Tells a ds)
    (entry : String) :
    let recording := a >>= fun x => record entry >>= fun _ => pure x
    Tells recording fun w => ds w ++ w.recorded entry recording := by
  intro recording w
  have hfirst := ha w
  show w.Accounts (ds w ++ w.recorded entry recording) _
  cases hrun : a.run w with
  | ok x w' =>
    rw [World.after_of_ok hrun] at hfirst
    rw [World.after_bind_ok hrun, World.recorded_bind_ok hrun]
    refine hfirst.trans ?_
    -- Handing on the value behind the entry changes neither the world nor whether there is a fault.
    have hlast := tells_record entry w'
    cases hrecord : (record entry).run w' with
    | ok y w'' =>
      have hends : (record entry >>= fun _ => pure x : Shell α).run w' = .ok x w'' := run_bind_ok hrecord _
      rw [World.recorded_of_ok hends, World.after_of_ok hends, ← World.recorded_of_ok hrecord,
        ← World.after_of_ok hrecord]
      exact hlast
    | error f w'' =>
      have hends : (record entry >>= fun _ => pure x : Shell α).run w' = .error f w'' :=
        run_bind_error hrecord _
      rw [World.recorded_of_error hends, World.after_of_error hends, ← World.recorded_of_error hrecord,
        ← World.after_of_error hrecord]
      exact hlast
  | error f w' =>
    have hfails : recording.run w = .error f w' := run_bind_error hrun _
    rw [World.after_of_error hrun] at hfirst
    rw [World.after_of_error hfails, World.recorded_of_error hfails, List.append_nil]
    exact hfirst

/-! ## What a session does -/

/-- A session may change without asking for an exit. -/
theorem World.grew_of_session (w : World) (session : Session)
    (h : session.exitRequested = w.session.exitRequested) : w.Grew { w with session } :=
  ⟨h, [], (List.append_nil _).symm, fun kept hkept => by
    rw [List.filterMap_nil, List.append_nil]
    exact hkept⟩

/-- What a session does to read a line asks for no exit. -/
theorem grew_input {a : Shell Unit} (h : Session.Input a) : Within World.Grew a := by
  cases h with
  | ran command =>
    intro w
    rw [World.after_of_ok (Dispatch.run_runOnHost command w)]
    exact w.grew_emitted fun e => World.entry?_of_mem_ran
  | record entry => exact grew_record entry
  | take line => exact fun w => World.grew_of_session w _ rfl
  | keep cs => exact fun w => World.grew_of_session w _ rfl

/-- What is routine but for reading lines is told by what comes to the trace. -/
theorem tells_routine {α : Type} {a : Shell α} (h : Routine False Session.Input a) :
    Tells a fun w => w.told a := tells_told (h.grew fun _ => grew_input)

namespace Dispatch

section

variable (inner : String → World → List Deed) (rerun : String → Shell Unit) (hasContext : Bool)

/-- The deeds of a single action of a handler, when `inner` tells those of the lines that are run. -/
def actionDeeds (action : Action) (w : World) : List Deed :=
  match action with
  | .run line => if hasContext && w.context.hasSession then inner line w else []
  | action => w.told (perform rerun Session.setInput hasContext action)

/-- The deeds of the actions of a handler. -/
def scriptDeeds : List Action → World → List Deed
  | [], _ => []
  | action :: rest, w =>
    w.deedsThen (perform rerun Session.setInput hasContext action)
      (actionDeeds inner rerun hasContext action w)
      fun value? u => if value?.isSome then [] else scriptDeeds rest u

end

variable (inner : String → World → List Deed) (rerun : String → Shell Unit)

/-- The deeds of the handler of an entry. -/
def handlerDeeds (e : Entry) (arguments : List String) (w : World) : List Deed :=
  match e.handler with
  | .builtin b origin => w.told (b.call origin arguments)
  | .script body =>
    let given := arguments.map Argument.text
    let calling := emit (.called e.name (if e.passContext then .context :: given else given))
    w.deedsThen calling (w.told calling) fun _ => scriptDeeds inner rerun e.passContext body

/-- The deeds of the handler to which a command is dispatched. -/
def dispatchDeeds (c : Command) (w : World) : List Deed :=
  w.deedsThen (entryOf c) (w.told (entryOf c)) fun
    | none, _ => []
    | some e, u => u.deedsThen (announce c e) [] fun _ =>
      handlerDeeds inner rerun e c.fields.tail

end Dispatch

namespace Session

variable (inner : String → World → List Deed) (rerun : String → Shell Unit)

/-- The deeds of executing one internal command. -/
def commandDeeds (c : Command) (w : World) : List Deed :=
  w.deedsThen (prepare c) (w.told (prepare c)) fun _ u =>
    [.dispatched c (Dispatch.dispatchDeeds inner rerun c u)
      (u.outcome (Dispatch.dispatch rerun setInput c)).toOption]

/-- The deeds of executing some commands. -/
def batchDeeds : List Command → World → List Deed
  | [], _ => []
  | c :: cs, w =>
    if c.isSystem || c.isEmpty then batchDeeds cs w
    else w.deedsThen (executeOne rerun c) (commandDeeds inner rerun c w) fun _ => batchDeeds cs

/-- The deeds of executing the line that was read last. -/
def executionDeeds (w : World) : List Deed :=
  batchDeeds inner rerun (w.session.commands.getD []) w

/-- The deeds of running a line in which handlers nest at most so deep. -/
def lineDeeds : Nat → String → World → List Deed
  | 0, _, _ => []
  | depth + 1, line, w =>
    if Line.isBlank line then []
    else w.deedsThen (setInput line) (w.told (setInput line)) fun _ =>
      executionDeeds (lineDeeds depth) (runNested depth)

end Session

/-! ## The deeds account for the run -/

namespace Dispatch

variable {inner : String → World → List Deed} {rerun : String → Shell Unit}

/-- The deeds with a session are those of the action if there is a session, and else none. -/
theorem tells_withSession {hasContext : Bool} {a : Shell Unit} {ds : World → List Deed}
    (ha : Tells a ds) :
    Tells (withSession hasContext a) fun w => if hasContext && w.context.hasSession then ds w else [] := by
  intro w
  cases hasContext with
  | false => exact .refl w
  | true =>
    show w.Accounts (if w.context.hasSession then ds w else []) (w.after (get >>= fun w' : World =>
      if w'.context.hasSession then a else throw .noSession))
    rw [World.after_bind_ok (EStateM.run_get w)]
    split
    · exact ha w
    · exact .refl w

/-- **An action of a handler** is told by its deeds. -/
theorem tells_perform (hinner : ∀ line, Tells (rerun line) (inner line)) (hasContext : Bool)
    (action : Action) : Tells (perform rerun Session.setInput hasContext action)
      (actionDeeds inner rerun hasContext action) := by
  cases action with
  | run line =>
    -- The one action whose deeds are not read off the trace: they are those of the line.
    intro w
    have hafter : w.after (perform rerun Session.setInput hasContext (.run line))
        = w.after (withSession hasContext (rerun line)) := by
      show w.after (withSession hasContext (rerun line) >>= fun _ => pure none) = _
      unfold World.after
      rw [EStateM.run_bind]
      cases (withSession hasContext (rerun line)).run w with
      | ok x w' => rfl
      | error f w' => rfl
    rw [hafter]
    exact tells_withSession (hinner line) w
  | _ => exact tells_routine (routine_perform (fun _ h => h) False.elim fun line h => nomatch h)

/-- **A handler** is told by the deeds of its actions. -/
theorem tells_runScript (hinner : ∀ line, Tells (rerun line) (inner line)) (hasContext : Bool)
    (body : List Action) : Tells (runScript rerun Session.setInput hasContext body)
      (scriptDeeds inner rerun hasContext body) := by
  induction body with
  | nil => exact tells_pure _
  | cons action rest ih =>
    rw [runScript_cons]
    refine tells_bind (tells_perform hinner hasContext action) fun value? => ?_
    cases value? with
    | none => exact ih
    | some value => exact tells_pure value

/-- A handler is told by its deeds, if the lines that it runs are. -/
theorem tells_callHandler (hinner : ∀ line, Tells (rerun line) (inner line)) (e : Entry)
    (arguments : List String) : Tells (callHandler rerun Session.setInput e arguments)
      (handlerDeeds inner rerun e arguments) := by
  unfold callHandler handlerDeeds
  cases e.handler with
  | builtin b origin => exact tells_routine (Builtin.routine_call b origin arguments)
  | script body =>
    exact tells_bind (tells_routine (.tell rfl)) fun _ => tells_runScript hinner e.passContext body

/-- Looking for the entry of a command is routine. -/
theorem routine_entryOf {K : Prop} {Own : Shell Unit → Prop} (c : Command) :
    Routine K Own (entryOf c) := by
  unfold entryOf
  split
  · exact .pure _
  · exact .pure _
  · refine .look (fun _ _ => rfl) fun w _ => ?_
    rw [← bind_pure (lookup _ _)]
    exact routine_lookup_bind fun e? _ => .pure e?

/-- **A dispatch** is told by the deeds of the handler, and if it returns by the entry that it records. -/
theorem tells_dispatch (hinner : ∀ line, Tells (rerun line) (inner line)) {c : Command}
    (hc : c.isEmpty = false) : Tells (dispatch rerun Session.setInput c) fun w =>
      dispatchDeeds inner rerun c w ++ w.recorded c.text (dispatch rerun Session.setInput c) := by
  rw [dispatch_eq hc]
  refine tells_bind_recorded (tells_routine (routine_entryOf c)) fun e? => ?_
  cases e? with
  | none => exact tells_throw _
  | some e =>
    refine tells_bind_recorded (tells_log _ _ _) fun _ => ?_
    exact tells_recording (tells_callHandler hinner e _) c.text

end Dispatch

namespace Session

variable {inner : String → World → List Deed} {rerun : String → Shell Unit}

/-- A dispatch is one deed: what its handler does, then its entry, and then the exit that it may ask for. -/
theorem accounts_dispatched {w u : World} {c : Command} {ds : List Deed} {value? : Option Json}
    (h : w.Accounts (ds ++ (value?.map fun _ => .event (.recorded c.text)).toList) u) :
    w.Accounts [.dispatched c ds value?] { u with
      session := { u.session with
        exitRequested := u.session.exitRequested || value?.any Json.isTrue } } := by
  have hevents : Deed.events [.dispatched c ds value?]
      = Deed.events (ds ++ (value?.map fun _ => Deed.event (.recorded c.text)).toList) := by
    rw [Deed.events_append]
    cases value? with
    | none => exact List.append_nil _
    | some value => exact List.append_nil _
  have hexits : Deed.exits [.dispatched c ds value?]
      = (Deed.exits (ds ++ (value?.map fun _ => Deed.event (.recorded c.text)).toList)
          || value?.any Json.isTrue) := by
    rw [Deed.exits_append]
    cases value? with
    | none => simp [Deed.exits, Deed.asks]
    | some value => simp [Deed.exits, Deed.asks]
  refine ⟨?_, ?_, ?_⟩
  · rw [hevents]
    exact h.events
  · rw [hevents]
    exact h.history
  · rw [hexits, ← Bool.or_assoc, ← h.exit]

/-- Dispatching and recording a command is one deed, with what the dispatch does within. -/
theorem tells_settle (hinner : ∀ line, Tells (rerun line) (inner line)) {c : Command}
    (hc : c.isEmpty = false) : Tells (settle rerun c) fun w =>
      [.dispatched c (Dispatch.dispatchDeeds inner rerun c w)
        (w.outcome (Dispatch.dispatch rerun setInput c)).toOption] := by
  intro w
  show w.Accounts [.dispatched c (Dispatch.dispatchDeeds inner rerun c w)
    (w.outcome (Dispatch.dispatch rerun setInput c)).toOption] _
  have haccounts := accounts_dispatched (Dispatch.tells_dispatch hinner hc w)
  cases hrun : (Dispatch.dispatch rerun setInput c).run w with
  | error f u =>
    rw [World.after_of_error hrun, World.outcome_of_error hrun] at haccounts
    have hfails : (settle rerun c).run w = .error f u := run_bind_error hrun _
    rw [World.after_of_error hfails, World.outcome_of_error hrun]
    simpa [Except.toOption] using haccounts
  | ok result u =>
    -- The flag is set only if the handler returned so; otherwise it stays what it was.
    rw [World.after_of_ok hrun, World.outcome_of_ok hrun] at haccounts
    rw [World.after_of_ok (run_settle_of_ok hrun), World.outcome_of_ok hrun]
    exact haccounts

/-- One command is told by its deeds. -/
theorem tells_executeOne (hinner : ∀ line, Tells (rerun line) (inner line)) {c : Command}
    (hc : c.isEmpty = false) : Tells (executeOne rerun c) (commandDeeds inner rerun c) := by
  rw [executeOne_eq]
  exact tells_bind (tells_routine (routine_prepare c)) fun _ => tells_settle hinner hc

/-- So are some commands. -/
theorem tells_executeAll (hinner : ∀ line, Tells (rerun line) (inner line)) (cs : List Command) :
    Tells (executeAll rerun cs) (batchDeeds inner rerun cs) := by
  induction cs with
  | nil => exact tells_pure _
  | cons c cs ih =>
    intro w
    cases hskip : c.isSystem || c.isEmpty with
    | true =>
      rw [batchDeeds, if_pos hskip, executeAll_of_skipped hskip]
      exact ih w
    | false =>
      have hempty : c.isEmpty = false := (Bool.or_eq_false_iff.mp hskip).2
      rw [batchDeeds, if_neg (Bool.eq_false_iff.mp hskip), executeAll_of_kept hskip]
      exact tells_bind (tells_executeOne hinner hempty) (fun _ => ih) w

/-- **An execution** is told by its deeds. -/
theorem tells_executeWith (hinner : ∀ line, Tells (rerun line) (inner line)) :
    Tells (executeWith rerun) (executionDeeds inner rerun) := by
  intro w
  unfold executeWith executionDeeds
  rw [World.after_bind_ok (EStateM.run_get w)]
  cases w.session.commands with
  | none => exact .refl w
  | some cs => exact tells_executeAll hinner cs w

/-- **Running a line** is told by its deeds, however deep handlers run lines within it. -/
theorem tells_runNested (depth : Nat) (line : String) :
    Tells (runNested depth line) (lineDeeds depth line) := by
  induction depth generalizing line with
  | zero => exact tells_throw _
  | succ depth ih =>
    unfold runNested runWith
    cases hline : Line.isBlank line with
    | true =>
      intro w
      have hnone : lineDeeds (depth + 1) line w = [] := by rw [lineDeeds, if_pos hline]
      rw [hnone]
      exact .refl w
    | false =>
      intro w
      have hread := tells_routine (routine_setInput (fun _ h => h) line)
      have hthen := tells_bind hread (fun _ => tells_executeWith ih) w
      rw [lineDeeds, if_neg (Bool.eq_false_iff.mp hline)]
      exact hthen

end Session

end CommandShell
