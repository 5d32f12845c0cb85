import CommandShell.Proofs.Files.Actions
import CommandShell.Session.Dispatch

/-! # Quiet handlers

A handler is quiet if all it does is to print before it returns or raises. Of the world it changes
nothing but the trace. A script that is quiet prints its lines and ends as they are followed
(`Dispatch.runScript_of_onlyPrint`), a builtin command brings what it brings to the trace
(`Builtin.after_call_of_onlyPrints`). A module is tame if it defines quiet commands only, removes none,
and raises nothing that escapes from the shell. -/

namespace CommandShell

/-- Whether an event is the call of a handler or a line that it prints. -/
def Event.isCall : Event → Bool
  | .called _ _ => true
  | .out _ => true
  | _ => false

/-- Whether a script only prints, until it returns or raises. -/
def Action.onlyPrint : List Action → Bool
  | [] => true
  | .print _ :: rest => onlyPrint rest
  | .unknown _ :: _ => true
  | .raise _ :: _ => true
  | .finish _ :: _ => true
  | _ :: _ => false

/-- What a script that only prints brings to the trace: its lines, until it returns or raises. -/
def Action.printed : List Action → List Event
  | .print text :: rest => .out (text ++ "\n") :: printed rest
  | _ => []

/-- How a script that only prints ends: with a value, or with what it raises. -/
def Action.ending : List Action → Except Fault Json
  | .print _ :: rest => ending rest
  | .finish value :: _ => .ok value
  | .raise r :: _ => .error (.raised r)
  | .unknown name :: _ => .error (.unknownCommand name)
  | _ => .ok .null

/-- Whether a builtin only prints, until it returns or raises. -/
def Builtin.onlyPrints : Builtin → Bool
  | .echo => true
  | .history => true
  | .pwd => true
  | .quit => true
  | .cd => false
  | .config => false
  | .help => false

/-- Whether a handler only prints, until it returns or raises. -/
def Handler.isQuiet : Handler → Bool
  | .script body => Action.onlyPrint body
  | .builtin b _ => b.onlyPrints

/-- Whether all that a module does is to define quiet commands, until it ends or raises a fault that
stays within the shell. -/
def Action.defineQuietly : List Action → Bool
  | [] => true
  | .raise r :: _ => (Fault.raised r).isOrdinary
  | .unknown _ :: _ => true
  | .define _ body :: rest => onlyPrint body && defineQuietly rest
  | .undefine _ :: _ => false
  | _ :: rest => defineQuietly rest

/-- Whether a module defines quiet commands only, removes none, and raises nothing that escapes. -/
def Module.isTame : Module → Bool
  | .unreadable => true
  | .script body => Action.defineQuietly body
  | .builtin b => b.onlyPrints

/-- Some calls and printed lines are all that happened between two worlds. -/
def World.Printed (w w' : World) : Prop := ∃ es, (∀ e ∈ es, e.isCall = true) ∧ w' = w.emitted es

/-- Calls and printed lines may follow each other. -/
theorem World.frame_printed : Shell.Frame World.Printed where
  refl w := ⟨[], fun e he => absurd he List.not_mem_nil, (World.emitted_nil w).symm⟩
  trans := by
    rintro u v w ⟨es, hes, rfl⟩ ⟨fs, hfs, rfl⟩
    refine ⟨es ++ fs, fun e he => ?_, World.emitted_emitted u es fs⟩
    rcases List.mem_append.mp he with he | he
    · exact hes e he
    · exact hfs e he

/-- What an action brings to the trace. -/
def World.brought {α : Type} (w : World) (a : Shell α) : List Event :=
  (w.after a).trace.drop w.trace.length

/-- What an action that only calls and prints brings to the trace is all that it does. -/
theorem World.Printed.after_eq {α : Type} {w : World} {a : Shell α} (h : w.Printed (w.after a)) :
    w.after a = w.emitted (w.brought a) ∧ ∀ e ∈ w.brought a, e.isCall = true := by
  obtain ⟨es, hes, hafter⟩ := h
  have hbrought : w.brought a = es := by
    rw [brought, hafter, trace_emitted, List.drop_left]
  rw [hbrought]
  exact ⟨hafter, hes⟩

/-- A call or a printed line is one event. -/
theorem Shell.printed_emit {e : Event} (h : e.isCall = true) : Within World.Printed (emit e) := by
  refine within_emit fun w => ⟨[e], fun e' he => ?_, rfl⟩
  rw [List.mem_singleton.mp he]
  exact h

namespace Builtin

/-- Reading the history prints nothing. -/
theorem printed_historyEntries : Shell.Within World.Printed historyEntries := by
  have hR := World.frame_printed
  refine hR.within_bind hR.within_get ?_
  intro w
  unfold History.entries
  split
  · exact hR.within_pure _
  · refine hR.within_bind (hR.within_bind hR.within_get fun w => ?_) fun there => ?_
    · split
      · exact hR.within_pure _
      · split
        · exact hR.within_pure _
        · exact hR.within_pure _
    · split
      · exact hR.within_bind (hR.within_bind (Files.within_query hR _ _) fun _ => hR.within_pure _)
          fun _ => hR.within_pure _
      · exact hR.within_pure _

/-- Numbered entries are printed. -/
theorem printed_printNumbered (number : Nat) (es : List String) :
    Shell.Within World.Printed (printNumbered number es) := by
  have hR := World.frame_printed
  induction es generalizing number with
  | nil => exact hR.within_pure _
  | cons e es ih => exact hR.within_bind (Shell.printed_emit rfl) fun _ => ih (number + 1)

/-- The command for the history only prints. -/
theorem printed_showHistory (arguments : List String) :
    Shell.Within World.Printed (showHistory arguments) := by
  have hR := World.frame_printed
  refine hR.within_bind printed_historyEntries ?_
  intro es
  split
  · exact printed_printNumbered 1 es
  · refine hR.within_bind ?_ fun n => ?_
    · unfold countOf
      split
      · exact hR.within_pure _
      · exact hR.within_throw _
      · exact hR.within_throw _
    · split
      · exact Shell.printed_emit rfl
      · exact printed_printNumbered _ _

/-- The command for the working directory only prints. -/
theorem printed_printDirectory : Shell.Within World.Printed printDirectory := by
  have hR := World.frame_printed
  refine hR.within_bind (hR.within_bind hR.within_get fun w => ?_) fun _ => Shell.printed_emit rfl
  split
  · exact hR.within_pure _
  · exact hR.within_throw _

/-- A builtin that only prints changes nothing but the trace. -/
theorem printed_call {b : Builtin} (h : b.onlyPrints = true) (origin : Nat) (arguments : List String) :
    Shell.Within World.Printed (b.call origin arguments) := by
  have hR := World.frame_printed
  cases b with
  | cd => cases h
  | config => cases h
  | help => cases h
  | echo => exact hR.within_bind (Shell.printed_emit rfl) fun _ => hR.within_pure _
  | quit => exact hR.within_bind (Shell.printed_emit rfl) fun _ => hR.within_pure _
  | history => exact hR.within_bind (printed_showHistory arguments) fun _ => hR.within_pure _
  | pwd => exact hR.within_bind printed_printDirectory fun _ => hR.within_pure _

/-- **A builtin that only prints** does nothing but to bring its lines to the trace. -/
theorem after_call_of_onlyPrints {b : Builtin} (h : b.onlyPrints = true) (origin : Nat)
    (arguments : List String) (w : World) :
    w.after (b.call origin arguments) = w.emitted (w.brought (b.call origin arguments)) ∧
      ∀ e ∈ w.brought (b.call origin arguments), e.isCall = true :=
  (printed_call h origin arguments w).after_eq

end Builtin

namespace Dispatch

/-- **A script that only prints** brings its lines to the trace and ends as they are followed. -/
theorem runScript_of_onlyPrint {body : List Action} (h : Action.onlyPrint body = true)
    (rerun reread : String → Shell Unit) (hasContext : Bool) (w : World) :
    w.after (runScript rerun reread hasContext body) = w.emitted (Action.printed body) ∧
      w.outcome (runScript rerun reread hasContext body) = Action.ending body := by
  induction body generalizing w with
  | nil => exact ⟨(World.emitted_nil w).symm, rfl⟩
  | cons action rest ih =>
    -- A quiet script goes on behind a printed line only.
    cases action with
    | print text =>
      obtain ⟨hafter, houtcome⟩ := ih h (w.emitted [.out (text ++ "\n")])
      have hprint := Shell.run_printLine text w
      have hscript : runScript rerun reread hasContext (.print text :: rest)
          = Shell.printLine text >>= fun _ => runScript rerun reread hasContext rest := rfl
      rw [hscript, World.after_bind_ok hprint, World.outcome_bind_ok hprint, hafter,
        World.emitted_emitted]
      exact ⟨rfl, houtcome⟩
    | unknown name => exact ⟨(World.emitted_nil w).symm, rfl⟩
    | raise r => exact ⟨(World.emitted_nil w).symm, rfl⟩
    | finish value => exact ⟨(World.emitted_nil w).symm, rfl⟩
    | run line => cases h
    | setInput line => cases h
    | define d body => cases h
    | undefine name => cases h
    | record entry => cases h
    | load name => cases h

/-- What a script prints are lines. -/
theorem isCall_of_mem_printed {body : List Action} {e : Event} (h : e ∈ Action.printed body) :
    e.isCall = true := by
  induction body with
  | nil => exact absurd h List.not_mem_nil
  | cons action rest ih =>
    cases action with
    | print text =>
      obtain rfl | hrest := List.mem_cons.mp h
      · rfl
      · exact ih hrest
    | _ => exact absurd h List.not_mem_nil

end Dispatch

end CommandShell
