import CommandShell.Proofs.Shell.Run
import CommandShell.Session.Basic

/-! # Reading a line under fixed answers

Who knows the internal names may act while it is asked. When its answers are those of a predicate and
leave the world alone, reading a line is the pure reading under that predicate
(`Line.run_read_of_answers`). Parsing is reading and one report (`Session.run_parseWith`). -/

namespace CommandShell

namespace Line

variable {ask : String → Shell Bool} {answer : String → Bool} {w : World}

/-- One segment is read as the pure reading has it, and the world stays the same. -/
theorem run_readSegment_of_answers (h : ∀ n, (ask n).run w = .ok (answer n) w)
    (segment : List Char) :
    (readSegment ask segment).run w
      = .ok (Id.run (readSegment (fun n => pure (answer n)) segment)) w := by
  unfold readSegment
  split
  · rfl
  · rw [Shell.run_bind_ok (h _)]
    rfl
  · rfl

/-- Segments are read as the pure reading has them, and the world stays the same. -/
theorem run_readSegments_of_answers (h : ∀ n, (ask n).run w = .ok (answer n) w)
    (segments : List (List Char)) :
    (readSegments ask segments).run w
      = .ok (Id.run (readSegments (fun n => pure (answer n)) segments)) w := by
  induction segments with
  | nil => rfl
  | cons s ss ih =>
    rw [readSegments, Shell.run_bind_ok (run_readSegment_of_answers h s), readSegments, Id.run_bind]
    cases Id.run (readSegment (fun n => pure (answer n)) s) with
    | error e => rfl
    | ok c =>
      show (readSegments ask ss >>= _).run w = _
      rw [Shell.run_bind_ok ih]
      show _ = EStateM.Result.ok (Id.run (readSegments (m := Id) _ ss >>= _)) w
      rw [Id.run_bind]
      cases Id.run (readSegments (fun n => pure (answer n)) ss) with
      | error e => rfl
      | ok cs => rfl

/-- **Fixed answers make reading pure.** -/
theorem run_read_of_answers (h : ∀ n, (ask n).run w = .ok (answer n) w) (line : List Char) :
    (read ask line).run w = .ok (Id.run (read (fun n => pure (answer n)) line)) w := by
  unfold read
  split
  · rfl
  · exact run_readSegments_of_answers h _

end Line

namespace Session

/-- Parsing reports how many commands a line has, or why it cannot be read. A fault of a bad value is such
a reason as well, and no other fault is caught. -/
theorem run_parseWith (ask : String → Shell Bool) (line : String) (w : World) :
    (parseWith ask line).run w = match (Line.read ask line.toList).run w with
      | .ok (.ok cs) v => .ok cs (v.emitted (v.reports .debug .parser
          ("Parsed " ++ Text.quoted line ++ " into " ++ toString cs.length ++ " command(s)")))
      | .ok (.error f) v => .ok [] (v.emitted (v.reports .warning .parser
          ("Cannot parse " ++ Text.quoted line ++ ": " ++ f.message)))
      | .error f v => if f.isValue then .ok [] (v.emitted (v.reports .warning .parser
          ("Cannot parse " ++ Text.quoted line ++ ": " ++ f.message))) else .error f v := by
  unfold parseWith
  cases hread : (Line.read ask line.toList).run w with
  | ok r v =>
    -- Nothing is thrown, so the recovery has nothing to do.
    cases r with
    | ok cs =>
      refine (Shell.run_bind_ok (?_ : _ = EStateM.Result.ok (Except.ok cs) v) _).trans ?_
      · apply Shell.run_recover_ok
        rw [Shell.run_bind_ok hread]
        rfl
      · exact Shell.run_bind_ok (Shell.run_log _ _ _ v) fun _ => pure cs
    | error f =>
      refine (Shell.run_bind_ok (?_ : _ = EStateM.Result.ok (Except.error f.message) v) _).trans ?_
      · apply Shell.run_recover_ok
        rw [Shell.run_bind_ok hread]
        rfl
      · exact Shell.run_bind_ok (Shell.run_log _ _ _ v) fun _ => pure []
  | error f v =>
    have hreading := Shell.run_bind_error hread fun r => pure (r.mapError Token.Fault.message)
    have hrecover := Shell.run_recover_error hreading Fault.isValue fun f => pure (.error f.message)
    cases hvalue : f.isValue with
    | true =>
      rw [hvalue] at hrecover
      simp only [hvalue]
      refine (Shell.run_bind_ok hrecover _).trans ?_
      exact Shell.run_bind_ok (Shell.run_log _ _ _ v) fun _ => pure []
    | false =>
      rw [hvalue] at hrecover
      simp only [hvalue]
      exact Shell.run_bind_error hrecover _

/-- **Fixed answers make parsing pure**, but for one report. -/
theorem run_parseWith_of_answers {ask : String → Shell Bool} {answer : String → Bool} {w : World}
    (h : ∀ n, (ask n).run w = .ok (answer n) w) (line : String) :
    (parseWith ask line).run w = match Id.run (Line.read (fun n => pure (answer n)) line.toList) with
      | .ok cs => .ok cs (w.emitted (w.reports .debug .parser
          ("Parsed " ++ Text.quoted line ++ " into " ++ toString cs.length ++ " command(s)")))
      | .error f => .ok [] (w.emitted (w.reports .warning .parser
          ("Cannot parse " ++ Text.quoted line ++ ": " ++ f.message))) := by
  rw [run_parseWith, Line.run_read_of_answers h]
  cases Id.run (Line.read (fun n => pure (answer n)) line.toList) with
  | ok cs => rfl
  | error f => rfl

/-- A line that can be read is parsed to its commands, and parsing only reports how many they are. -/
theorem run_parse_of_answers {answer : String → Bool} {w : World}
    (h : ∀ n, (classify n).run w = .ok (answer n) w) {line : String} {cs : List Command}
    (hread : Id.run (Line.read (fun n => pure (answer n)) line.toList) = .ok cs) :
    (parse line).run w = .ok cs (w.emitted (w.reports .debug .parser
      ("Parsed " ++ Text.quoted line ++ " into " ++ toString cs.length ++ " command(s)"))) := by
  rw [parse, run_parseWith_of_answers h line, hread]

/-- Without a list of internal names every name is internal. -/
theorem run_classify_everything {w : World} (h : w.classifier = .everything) (name : String) :
    (classify name).run w = .ok true w := by
  rw [classify, Shell.run_bind_ok (EStateM.run_get w), h]
  rfl

end Session

end CommandShell
