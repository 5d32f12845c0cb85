import CommandShell.Proofs.Session.Calls
import CommandShell.Proofs.Session.Deeds

/-! # How commands end on the host

A session runs commands on the host and is told how each of them ends. It looks at that in one place only,
and does no more there than to log a failure at the level DEBUG (`World.failure`). So two hosts on which
commands end differently are told apart by such records alone: a relation between worlds that allows for
them (`World.SameButCodes`) is kept by running a command on the host (`carries_runOnHost`) and not noticed by
whatever else is done (`unnoticed_sameButCodes`), hence kept by any
number of calls on a session (`exit_codes_decide_nothing`). -/

namespace CommandShell

open Shell

/-- Two lists of events are **the same but for DEBUG records**, and but for the lines that these bring to
the error output if the sink writes them there. -/
inductive SameButDebug (sink : LogSink) : List Event → List Event → Prop
  | refl (t : List Event) : SameButDebug sink t t
  | both {t u : List Event} (es : List Event) (h : SameButDebug sink t u) :
    SameButDebug sink (t ++ es) (u ++ es)
  | left {t u : List Event} {w : World} (hsink : w.logSink = sink) (source : LogSource)
    (message : String) (h : SameButDebug sink t u) :
    SameButDebug sink (t ++ w.reports .debug source message) u
  | right {t u : List Event} {w : World} (hsink : w.logSink = sink) (source : LogSource)
    (message : String) (h : SameButDebug sink t u) :
    SameButDebug sink t (u ++ w.reports .debug source message)

namespace SameButDebug

variable {sink : LogSink} {t u : List Event}

/-- Whatever holds of no DEBUG record and of no line that it brings picks the same events. -/
theorem filter_eq (h : SameButDebug sink t u) {p : Event → Bool}
    (hp : ∀ w : World, w.logSink = sink → ∀ source message,
      ∀ e ∈ w.reports .debug source message, p e = false) : t.filter p = u.filter p := by
  have hnone {w : World} (hsink : w.logSink = sink) (source : LogSource) (message : String) :
      (w.reports .debug source message).filter p = [] :=
    List.filter_eq_nil_iff.mpr fun e he => by simp [hp w hsink source message e he]
  induction h with
  | refl t => rfl
  | both es _ ih => rw [List.filter_append, List.filter_append, ih]
  | left hsink source message _ ih => rw [List.filter_append, hnone hsink, List.append_nil, ih]
  | right hsink source message _ ih => rw [List.filter_append, hnone hsink, List.append_nil, ih]

/-- All events but reports are the same. -/
theorem filter_isReport (h : SameButDebug sink t u) :
    (t.filter fun e => !e.isReport) = u.filter fun e => !e.isReport :=
  h.filter_eq fun w _ source message e he => by simp [World.isReport_of_mem_reports he]

end SameButDebug

namespace World

/-- The world on whose host commands end with other codes. -/
def recoded (w : World) (codes : Table String Int) : World :=
  { w with host := { w.host with returncodes := codes } }

/-- How some calls end. Faults are caught between them. -/
def outcomes (w : World) : List Session.Call → List (Except Fault Unit)
  | [] => []
  | call :: calls => w.outcome call.perform :: (w.after call.perform).outcomes calls

/-- Two worlds are **the same but for how commands end** on their hosts, and but for DEBUG records. -/
structure SameButCodes (sink : LogSink) (codes : Table String Int) (w u : World) : Prop where
  /-- The rest is the same. -/
  same : u = w.behind ⟨codes, u.trace, w.session.name⟩
  /-- The traces are the same but for DEBUG records. -/
  traces : SameButDebug sink w.trace u.trace
  /-- What becomes of log records. -/
  logSink : w.logSink = sink

end World

namespace Session

variable {sink : LogSink} {codes : Table String Int}

/-- Routine actions do not notice how commands end. -/
theorem unnoticed_sameButCodes : Unnoticed (World.SameButCodes sink codes) where
  same w u h := by
    rw [h.same]
    rfl
  emit w u e h := by
    refine ⟨?_, h.traces.both [e], h.logSink⟩
    rw [h.same]
    rfl
  change g hg w u h := by
    refine ⟨?_, by rw [hg.trace, hg.trace]; exact h.traces, (hg.logSink w).trans h.logSink⟩
    rw [hg.trace, hg.name]
    exact (congrArg g h.same).trans (hg.behind w _)

/-- **Running a command on the host** brings the same to the outside but for the record of a failure. -/
theorem carries_runOnHost (command : String) :
    Carries (World.SameButCodes sink codes) (Dispatch.runOnHost command) := by
  intro w u h
  have hreports (message : String) (source : LogSource) :
      u.reports .debug source message = w.reports .debug source message := by
    rw [h.same]
    rfl
  have hsink : u.logSink = sink := by
    rw [h.same]
    exact h.logSink
  -- Each of the failures may be there or not.
  have hleft {t t' : List Event} (ht : SameButDebug sink t t') :
      SameButDebug sink (t ++ w.failure command) t' := by
    unfold World.failure
    split
    · exact ht.left h.logSink _ _
    · rw [List.append_nil]
      exact ht
  have hright {t t' : List Event} (ht : SameButDebug sink t t') :
      SameButDebug sink t (t' ++ u.failure command) := by
    unfold World.failure
    split
    · exact ht.right hsink _ _
    · rw [List.append_nil]
      exact ht
  rw [Dispatch.run_runOnHost, Dispatch.run_runOnHost]
  refine .ok ⟨?_, ?_, h.logSink⟩
  · rw [h.same]
    rfl
  · show SameButDebug sink (w.trace ++ w.ran command) (u.trace ++ u.ran command)
    unfold World.ran
    rw [hreports, ← List.append_assoc w.trace, ← List.append_assoc u.trace]
    exact hleft (hright (h.traces.both _))

/-- A routine action does the same on hosts that differ in how commands end. -/
theorem carries_sameButCodes {α : Type} {a : Shell α} (h : Routine False Own a) :
    Carries (World.SameButCodes sink codes) a := by
  refine h.carries unnoticed_sameButCodes fun a ha => ?_
  refine carries_own_of unnoticed_sameButCodes carries_runOnHost (fun line => ?_) ha
  intro w u hw
  refine .ok (w := taking w line) (u := taking u line) ⟨?_, hw.traces, hw.logSink⟩
  rw [hw.same]
  rfl

/-- **A call on a session** is routine but for what a session does itself. -/
theorem Call.routine_perform (call : Call) : Routine False Own call.perform := by
  cases call with
  | setInput line => exact routine_setInput (fun _ => .input) line
  | execute => exact routine_executeWith (routine_runNested _)
  | run line => exact routine_runNested _ line
  | isInternal name => exact .bind (routine_isInternal name) fun _ => .pure _
  | load name => exact Loader.routine_load name
  | loadAll verbose => exact .bind (Loader.routine_loadAll verbose) fun _ => .pure _
  | register d handler => exact .look (fun _ _ => rfl) fun w _ => routine_register _ False.elim
  | add entry => exact .look (fun _ _ => rfl) fun w _ => routine_add _ False.elim
  | unregister name => exact .look (fun _ _ => rfl) fun w _ => routine_unregister _ name

/-- **Calls on a session** end alike, call by call, and leave worlds that are the same but for how commands
end. -/
theorem sameButCodes_afterCalls (calls : List Call) {w u : World} (h : w.SameButCodes sink codes u) :
    w.outcomes calls = u.outcomes calls ∧
      (w.afterCalls calls).SameButCodes sink codes (u.afterCalls calls) := by
  induction calls generalizing w u with
  | nil => exact ⟨rfl, h⟩
  | cons call calls ih =>
    have hend := carries_sameButCodes call.routine_perform w u h
    obtain ⟨houtcomes, hafter⟩ := ih hend.after
    refine ⟨?_, hafter⟩
    rw [World.outcomes, World.outcomes, hend.outcome, houtcomes]

/-- **Exit codes decide nothing.** On hosts that differ only in how commands end, any calls on a session end
alike, with the same faults. They bring the same to the outside but for records at the level DEBUG, so the
events beside reports are the same. All else is the same afterwards, among it the history, the line and the
commands of the session, and whether it is to exit. -/
theorem exit_codes_decide_nothing (w : World) (codes : Table String Int) (calls : List Call) :
    let u := w.recoded codes
    w.outcomes calls = u.outcomes calls ∧
    (w.afterCalls calls).events = (u.afterCalls calls).events ∧
    SameButDebug w.logSink (w.afterCalls calls).trace (u.afterCalls calls).trace ∧
    u.afterCalls calls =
      { (w.afterCalls calls).recoded codes with trace := (u.afterCalls calls).trace } := by
  intro u
  have hstart : w.SameButCodes w.logSink codes u := ⟨rfl, .refl _, rfl⟩
  obtain ⟨houtcomes, hsame, htraces, _⟩ := sameButCodes_afterCalls calls hstart
  exact ⟨houtcomes, htraces.filter_isReport, htraces, hsame⟩

end Session

end CommandShell
