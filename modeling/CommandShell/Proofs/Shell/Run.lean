import CommandShell.History.Basic

/-! # Running actions

What the basic actions of a shell give and what world they leave, as equations on `run`. Log records
and complaints are **reports**: they reach the outside but tell nothing that the shell acts on, and
`World.reported` is the world after some of them. -/

namespace CommandShell

/-- Whether an event only reports: a log record, or a line on the error output. -/
def Event.isReport : Event → Bool
  | .log _ _ _ => true
  | .err _ => true
  | _ => false

/-- The entry that an event adds to the history. -/
def Event.entry? : Event → Option String
  | .recorded entry => some entry
  | _ => none

/-- A report adds no entry. -/
theorem Event.entry?_of_isReport {e : Event} (h : e.isReport = true) : e.entry? = none := by
  cases e with
  | recorded entry => cases h
  | _ => rfl

namespace World

/-- The world after some more events reached the outside. -/
def emitted (w : World) (es : List Event) : World := { w with trace := w.trace ++ es }

/-- No events change nothing. -/
@[simp] theorem emitted_nil (w : World) : w.emitted [] = w := by
  simp [emitted]

/-- Events that come one after the other come together. -/
@[simp] theorem emitted_emitted (w : World) (es fs : List Event) :
    (w.emitted es).emitted fs = w.emitted (es ++ fs) := by
  simp [emitted]

/-- Events come to the end of the trace. -/
@[simp] theorem trace_emitted (w : World) (es : List Event) :
    (w.emitted es).trace = w.trace ++ es := rfl

/-- What a log record brings to the outside: itself, and a line on the error output if the sink says
so. -/
def reports (w : World) (level : Level) (source : LogSource) (message : String) : List Event :=
  .log level source message :: match w.logSink with
    | .kept => []
    | .bare => if Level.warning.number ≤ level.number then [.err (message ++ "\n")] else []
    | .stamped least =>
      if least ≤ level.number then
        [.err (w.time ++ ",000 " ++ level.name ++ " " ++ source.name ++ ": " ++ message ++ "\n")]
      else []

/-- What a log record brings is all reports. -/
theorem isReport_of_mem_reports {w : World} {level : Level} {source : LogSource} {message : String}
    {e : Event} (h : e ∈ w.reports level source message) : e.isReport = true := by
  rcases List.mem_cons.mp h with rfl | h
  · rfl
  · cases hs : w.logSink with
    | kept =>
      rw [hs] at h
      exact absurd h (by simp)
    | bare =>
      simp only [hs] at h
      split at h
      · rw [List.mem_singleton.mp h]
        rfl
      · exact absurd h (by simp)
    | stamped least =>
      simp only [hs] at h
      split at h
      · rw [List.mem_singleton.mp h]
        rfl
      · exact absurd h (by simp)

/-- All that a log record brings is a report. -/
theorem filter_reports (w : World) (level : Level) (source : LogSource) (message : String) :
    ((w.reports level source message).filter fun e => !e.isReport) = [] :=
  List.filter_eq_nil_iff.mpr fun e he => by simp [isReport_of_mem_reports he]

end World

namespace Shell

variable {α β : Type}

/-- Emitting brings one event. -/
@[simp] theorem run_emit (e : Event) (w : World) : (emit e).run w = .ok () (w.emitted [e]) := rfl

/-- Printing brings one line to the output. -/
@[simp] theorem run_printLine (text : String) (w : World) :
    (printLine text).run w = .ok () (w.emitted [.out (text ++ "\n")]) := rfl

/-- Complaining brings one line to the error output. -/
@[simp] theorem run_complainLine (text : String) (w : World) :
    (complainLine text).run w = .ok () (w.emitted [.err (text ++ "\n")]) := rfl

/-- A log record only reports. -/
@[simp] theorem run_log (level : Level) (source : LogSource) (message : String) (w : World) :
    (log level source message).run w = .ok () (w.emitted (w.reports level source message)) := by
  rw [log, EStateM.run_bind, run_emit]
  simp only [EStateM.run_bind, EStateM.run_get]
  have hsink : (w.emitted [.log level source message]).logSink = w.logSink := rfl
  rw [hsink, World.reports]
  cases w.logSink with
  | kept => simp
  | bare => by_cases h : Level.warning.number ≤ level.number <;> simp [h]
  | stamped least =>
    by_cases h : least ≤ level.number
    · simp [h, World.emitted]
    · simp [h]

/-- A computation that gives something gives it without a change. -/
@[simp] theorem run_ofExcept_ok {ε : Type} (fault : ε → Fault) (a : α) (w : World) :
    (ofExcept fault (.ok a)).run w = .ok a w := rfl

/-- A computation that fails ends with the fault made of its error. -/
@[simp] theorem run_ofExcept_error {ε : Type} (fault : ε → Fault) (e : ε) (w : World) :
    (ofExcept fault (.error e) : Shell α).run w = .error (fault e) w := rfl

/-- An action with a recovery gives what the action gives, unless that ends with a fault. -/
theorem run_catch_ok {a : Shell α} {w w' : World} {x : α} (h : a.run w = .ok x w')
    (recovery : Fault → Shell α) : (tryCatch a recovery).run w = .ok x w' := by
  show EStateM.tryCatch a recovery w = _
  delta EStateM.tryCatch
  rw [show a w = .ok x w' from h]

/-- A recovery goes on from the world that the fault leaves. -/
theorem run_catch_error {a : Shell α} {w w' : World} {f : Fault} (h : a.run w = .error f w')
    (recovery : Fault → Shell α) : (tryCatch a recovery).run w = (recovery f).run w' := by
  show EStateM.tryCatch a recovery w = _
  delta EStateM.tryCatch
  rw [show a w = .error f w' from h]
  rfl

/-- Nothing is recovered from where nothing fails. -/
theorem run_recover_ok {a : Shell α} {w w' : World} {x : α} (h : a.run w = .ok x w')
    (test : Fault → Bool) (recovery : Fault → Shell α) :
    (recover test a recovery).run w = .ok x w' := run_catch_ok h _

/-- A fault is recovered from if the test says so, and else passed on. -/
theorem run_recover_error {a : Shell α} {w w' : World} {f : Fault} (h : a.run w = .error f w')
    (test : Fault → Bool) (recovery : Fault → Shell α) :
    (recover test a recovery).run w
      = if test f then (recovery f).run w' else .error f w' := by
  rw [recover, run_catch_error h]
  split
  · rfl
  · rfl

/-- What a recovered action does depends on the run of the action alone. -/
theorem run_recover_congr {a b : Shell α} {w : World} (h : a.run w = b.run w) (test : Fault → Bool)
    (recovery : Fault → Shell α) : (recover test a recovery).run w = (recover test b recovery).run w := by
  cases hb : b.run w with
  | ok x w' => rw [run_recover_ok (h.trans hb), run_recover_ok hb]
  | error f w' => rw [run_recover_error (h.trans hb), run_recover_error hb]

/-- What follows starts with what was given, in the world that was left. -/
theorem run_bind_ok {a : Shell α} {w w' : World} {x : α} (h : a.run w = .ok x w')
    (g : α → Shell β) : (a >>= g).run w = (g x).run w' := by
  rw [EStateM.run_bind, h]

/-- A fault ends all that would follow. -/
theorem run_bind_error {a : Shell α} {w w' : World} {f : Fault} (h : a.run w = .error f w')
    (g : α → Shell β) : (a >>= g).run w = .error f w' := by
  rw [EStateM.run_bind, h]

/-- Two actions give something after each other exactly if both do. -/
theorem run_bind_eq_ok_iff {a : Shell α} {g : α → Shell β} {w w' : World} {y : β} :
    (a >>= g).run w = .ok y w' ↔ ∃ x w₁, a.run w = .ok x w₁ ∧ (g x).run w₁ = .ok y w' := by
  cases hfirst : a.run w with
  | ok x w₁ =>
    rw [run_bind_ok hfirst]
    constructor
    · exact fun h => ⟨x, w₁, rfl, h⟩
    · rintro ⟨x', w₁', heq, h⟩
      cases heq
      exact h
  | error f w₁ =>
    rw [run_bind_error hfirst]
    constructor
    · intro h
      exact nomatch h
    · rintro ⟨x', w₁', heq, _⟩
      exact nomatch heq

end Shell

/-! ## Recording -/

section

variable {w : World}

/-- In memory an entry is stored behind the others, and never fails to be. -/
theorem run_record_of_memory {es : List String} (h : w.history = .memory es)
    (entry : String) :
    let reports := w.reports .debug .history ("History += " ++ Text.quoted entry)
    (record entry).run w = .ok () { w with
      history := .memory (es ++ [entry])
      trace := (w.trace ++ reports) ++ [.recorded entry] } := by
  intro reports
  have hhistory : (w.emitted reports).history = .memory es := h
  unfold record
  rw [Shell.run_bind_ok (Shell.run_log _ _ _ w), Shell.run_bind_ok (EStateM.run_get _), hhistory]
  rfl

/-- In a file an entry is stored by appending its lines, which may fail. -/
theorem run_record_of_file {path : Path} (h : w.history = .file path) (entry : String) :
    let reports := w.reports .debug .history ("History += " ++ Text.quoted entry)
    (record entry).run w = (Files.appendBytes path (HistoryFormat.written w.time entry) >>= fun _ =>
      Shell.emit (.recorded entry)).run (w.emitted reports) := by
  intro reports
  have hhistory : (w.emitted reports).history = .file path := h
  unfold record
  rw [Shell.run_bind_ok (Shell.run_log _ _ _ w), Shell.run_bind_ok (EStateM.run_get _), hhistory]
  rfl

end

end CommandShell
