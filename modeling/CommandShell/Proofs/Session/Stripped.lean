import CommandShell.Proofs.Command.Stripping
import CommandShell.Proofs.Session.Routine

/-! # Blanks around a line that is run

A line and the stripped line are read to the same commands, and what is said about them differs in reports
only. Nothing that a session does looks at reports or at the line that it has taken, so both lines are run
alike (`Session.matches_run_strip`), and no event but for reports tells them apart. -/

namespace CommandShell

open Shell

/-- A line is blank exactly if nothing is left of it. -/
theorem Line.isBlank_strip (line : String) : Line.isBlank (Text.strip line) = Line.isBlank line := by
  rw [Line.isBlank, Line.isBlank, Text.strip, String.toList_ofList, Text.trim_trim]

namespace Session

/-- Two traces are the same but for reports. -/
def SameEvents (t u : List Event) : Prop :=
  (t.filter fun e => !e.isReport) = u.filter fun e => !e.isReport

/-- Traces with the same events still have them when both go on alike. -/
theorem grows_sameEvents : Grows SameEvents := fun t t' es h => by
  rw [SameEvents, List.filter_append, List.filter_append, h]

/-- What is run alike but for reports, whatever line the session has taken. -/
abbrev AlikeButReports : World → World → Prop := World.Alike SameEvents fun _ _ => True

/-- What is logged makes no difference but for reports. -/
theorem matches_log (level : Level) (source : LogSource) (message message' : String) :
    Matches AlikeButReports (log level source message) (log level source message') := by
  rintro w u ⟨hsame, htraces, -⟩
  rw [run_log, run_log]
  refine .ok ⟨?_, ?_, trivial⟩
  · rw [hsame]
    rfl
  · rw [SameEvents, World.trace_emitted, World.trace_emitted, List.filter_append, List.filter_append,
      World.filter_reports, World.filter_reports, htraces]

/-- A line and the stripped line are read to the same commands. -/
theorem matches_parse_strip (line : String) :
    Matches AlikeButReports (parse line) (parse (Text.strip line)) := by
  unfold parse parseWith
  rw [Line.read_strip]
  -- Both are read by the same action; only the record behind it quotes the line.
  refine matches_bind ?_ fun reading => ?_
  · exact (Routine.recover (.bind (routine_read _) fun _ => .pure _) fun _ => .pure _).carries_plain
      (unnoticed_alike grows_sameEvents)
  · split
    · exact matches_bind (matches_log _ _ _ _) fun _ => carries_pure _
    · exact matches_bind (matches_log _ _ _ _) fun _ => carries_pure _

/-- A line and the stripped line are taken alike, but for reports. -/
theorem matches_setInput_strip (line : String) :
    Matches AlikeButReports (setInput line) (setInput (Text.strip line)) := by
  have hcarries {a : Shell Unit} (h : Own a) : Carries AlikeButReports a :=
    carries_own grows_sameEvents (fun _ => trivial) h
  unfold setInput
  rw [Line.isBlank_strip]
  split
  · exact carries_pure ()
  · refine matches_bind ?_ fun _ => matches_bind (matches_parse_strip line) fun cs => ?_
    · intro w u h
      refine .ok (w := taking w line) (u := taking u (Text.strip line)) ⟨?_, h.traces, trivial⟩
      rw [h.same]
      rfl
    · refine matches_bind (hcarries (.input (.keep cs))) fun _ => ?_
      exact (routine_runSystemCommands (K := False) (fun _ => Own.input) cs).carries
        (unnoticed_alike grows_sameEvents) fun _ => hcarries

/-- **A line and the stripped line are run alike:** they do the same but for reports, and leave the same
history and the same commands. -/
theorem matches_run_strip (line : String) :
    Matches AlikeButReports (run line) (run (Text.strip line)) := by
  unfold run runNested runWith
  rw [Line.isBlank_strip]
  split
  · exact carries_pure ()
  · refine matches_bind (matches_setInput_strip line) fun _ => ?_
    exact (routine_executeWith (K := False) (routine_runNested _)).carries
      (unnoticed_alike grows_sameEvents) fun _ => carries_own grows_sameEvents fun _ => trivial

end Session

end CommandShell
