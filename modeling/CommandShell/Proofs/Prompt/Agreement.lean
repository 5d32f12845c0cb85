import CommandShell.Prompt.Rich
import CommandShell.Prompt.Simple
import CommandShell.Proofs.Session.Deeds
import CommandShell.Proofs.Session.Stripped

/-! # The two prompts agree

Beside running lines, a prompt only prints and logs (`World.Chatted`). So it **serves** the lines among its
answers (`Prompt.Served`): it runs them one after the other until one of them asks to exit. Two prompts that
are given the same answers serve them with the same runs and leave the session in the same state
(`Prompt.prompts_agree`). -/

namespace CommandShell

open Shell

/-! ## Chatter -/

/-- Whether an event may be what a prompt says itself. -/
def Event.isChatter : Event → Bool
  | .out _ => true
  | e => e.isReport

/-- What is logged is chatter. -/
theorem Event.isChatter_of_isReport {e : Event} (h : e.isReport = true) : e.isChatter = true := by
  cases e <;> first | rfl | exact h

namespace World

/-- Nothing happened but that something was printed or logged. -/
def Chatted (w w' : World) : Prop := ∃ es, (∀ e ∈ es, e.isChatter = true) ∧ w' = w.emitted es

/-- Nothing at all is no more than chatter. -/
theorem Chatted.refl (w : World) : w.Chatted w := ⟨[], by simp, w.emitted_nil.symm⟩

/-- Chatter behind chatter is chatter. -/
theorem Chatted.trans {u v w : World} (h : u.Chatted v) (h' : v.Chatted w) : u.Chatted w := by
  obtain ⟨es, hes, rfl⟩ := h
  obtain ⟨fs, hfs, rfl⟩ := h'
  exact ⟨es ++ fs, fun e he => (List.mem_append.mp he).elim (hes e) (hfs e), u.emitted_emitted es fs⟩

/-- Chatter keeps a world ordinary. -/
theorem Chatted.ordinary {w w' : World} (h : w.Chatted w') (hw : w.Ordinary) : w'.Ordinary := by
  obtain ⟨es, -, rfl⟩ := h
  exact ⟨hw.registries, hw.files⟩

/-- Chatter leaves the session. -/
theorem Chatted.session {w w' : World} (h : w.Chatted w') : w'.session = w.session := by
  obtain ⟨es, -, rfl⟩ := h
  rfl

/-- Two worlds are the same but for the trace. -/
def SameButTrace (w u : World) : Prop := u = { w with trace := u.trace }

/-- Worlds that are the same but for the trace stay so when both chat. -/
theorem SameButTrace.chatted {w u w' u' : World} (h : w.SameButTrace u) (hw : w.Chatted w')
    (hu : u.Chatted u') : w'.SameButTrace u' := by
  obtain ⟨es, -, rfl⟩ := hw
  obtain ⟨fs, -, rfl⟩ := hu
  show u.emitted fs = { w.emitted es with trace := (u.emitted fs).trace }
  rw [h]
  rfl

/-- The trace is no part of the session. -/
theorem SameButTrace.session {w u : World} (h : w.SameButTrace u) : u.session = w.session := by
  rw [h]

/-- Whether a world is ordinary does not depend on its trace. -/
theorem SameButTrace.ordinary {w u : World} (h : w.SameButTrace u) (hw : w.Ordinary) :
    u.Ordinary := by
  rw [h]
  exact ⟨hw.registries, hw.files⟩

end World

/-- An action that only prints or logs, and does not fail. -/
def Shell.Chats (a : Shell Unit) : Prop := ∀ w : World, ∃ w', a.run w = .ok () w' ∧ w.Chatted w'

namespace Shell

/-- Doing nothing is chatting. -/
theorem chats_pure : Chats (pure ()) := fun w => ⟨w, rfl, .refl w⟩

/-- Emitting chatter is chatting. -/
theorem chats_emit {e : Event} (h : e.isChatter = true) : Chats (emit e) :=
  fun w => ⟨w.emitted [e], rfl, [e], by simpa using h, rfl⟩

/-- Logging is chatting. -/
theorem chats_log (level : Level) (source : LogSource) (message : String) :
    Chats (log level source message) :=
  fun w => ⟨_, run_log level source message w, _,
    fun _ he => Event.isChatter_of_isReport (World.isReport_of_mem_reports he), rfl⟩

/-- Chatting may go on. -/
theorem chats_bind {a b : Shell Unit} (ha : Chats a) (hb : Chats b) : Chats (a >>= fun _ => b) := by
  intro w
  obtain ⟨w₁, hrun, hw₁⟩ := ha w
  obtain ⟨w₂, hrun₂, hw₂⟩ := hb w₁
  exact ⟨w₂, (run_bind_ok hrun _).trans hrun₂, hw₁.trans hw₂⟩

end Shell

namespace Prompt

/-- Beside running lines, a prompt only prints and logs. -/
structure Manner.Chats (m : Manner) : Prop where
  /-- So it does when it asks. -/
  ask : Shell.Chats m.ask
  /-- So it does behind an interruption. -/
  interrupted : Shell.Chats m.interrupted
  /-- So it does when it leaves. -/
  farewell : Shell.Chats m.farewell

/-- The simple prompt only chats beside running lines. -/
theorem Manner.chats_simple (prompt : String) : (Manner.simple prompt).Chats :=
  ⟨chats_emit rfl, chats_emit rfl, chats_emit rfl⟩

/-- So does the rich one. -/
theorem Manner.chats_rich : Manner.rich.Chats := ⟨chats_log _ _ _, chats_pure, chats_emit rfl⟩

/-- Reporting a fault is chatting. -/
theorem chats_report (f : Fault) : Shell.Chats (report f) := by
  unfold report
  split
  · exact chats_bind (chats_emit rfl) (chats_emit rfl)
  · exact chats_bind (chats_log _ _ _) (chats_emit rfl)

/-! ## Running a line at a prompt -/

/-- **A fault does not end the prompt.** A line is run and its fault is reported; the prompt is told whether
the shell is to exit. -/
theorem run_runLine {w : World} (hw : w.Ordinary) (line : String) :
    ∃ w', (runLine line).run w = .ok (w.after (Session.run line)).session.exitRequested w' ∧
      (w.after (Session.run line)).Chatted w' ∧ w'.Ordinary := by
  have hend := Session.staysOrdinary_run line w hw
  have hask {w' : World} (h : (recover Fault.isOrdinary (Session.run line) report).run w = .ok () w') :
      (runLine line).run w = .ok w'.session.exitRequested w' := run_bind_ok h _
  cases hrun : (Session.run line).run w with
  | ok x w₁ =>
    rw [hrun] at hend
    rw [World.after_of_ok hrun]
    cases hend with
    | ok h => exact ⟨w₁, hask (run_recover_ok hrun _ _), .refl w₁, h⟩
  | error f w₁ =>
    rw [hrun] at hend
    rw [World.after_of_error hrun]
    cases hend with
    | error hf h =>
      obtain ⟨w₂, hreport, hchatted⟩ := chats_report f w₁
      refine ⟨w₂, ?_, hchatted, hchatted.ordinary h⟩
      rw [← hchatted.session]
      refine hask ?_
      rw [run_recover_error hrun, if_pos hf]
      exact hreport

/-- A line brings the same events to the trace of both worlds if these are the same but for the trace. -/
theorem run_agree {w u : World} (h : w.SameButTrace u) (line : String) :
    (w.after (Session.run line)).SameButTrace (u.after (Session.run line)) ∧
      ∃ es, (w.after (Session.run line)).trace = w.trace ++ es ∧
        (u.after (Session.run line)).trace = u.trace ++ es := by
  -- Both traces have grown by the same events since the run began.
  let T (t t' : List Event) : Prop := ∃ es, t = w.trace ++ es ∧ t' = u.trace ++ es
  have hgrows : Grows T := by
    rintro t t' fs ⟨es, rfl, rfl⟩
    exact ⟨es ++ fs, List.append_assoc _ _ _, List.append_assoc _ _ _⟩
  have hname : u.session.name = w.session.name := by rw [h.session]
  have halike : World.Alike T Eq w u := by
    refine ⟨?_, ⟨[], (List.append_nil _).symm, (List.append_nil _).symm⟩, hname.symm⟩
    rw [hname]
    exact h
  obtain ⟨hsame, htraces, hnames⟩ :=
    (Session.carries_run hgrows (fun _ => rfl) line w u halike).after
  refine ⟨?_, htraces⟩
  rw [← hnames] at hsame
  exact hsame

/-! ## Serving lines -/

/-- The lines that a prompt is given: those among the answers, stripped, but for blank ones. -/
def linesOf (answers : List (Option String)) : List String :=
  (answers.filterMap fun answer? => answer?.map Text.strip).filter fun line => line ≠ ""

/-- A prompt **serves** lines: it runs them one after the other, each with the events that it brings to the
trace, up to the first during which a dispatch that returned, at any depth, asked to exit. Beside that it
only prints and logs. -/
inductive Served : World → List String → List (String × List Event) → World → Prop
  | ended {w w' : World} (h : w.Chatted w') : Served w [] [] w'
  | left {w u w' : World} {line : String} {es : List Event} (rest : List String) (h : w.Chatted u)
    (hexit : Deed.exits (Session.lineDeeds (Session.maxNesting + 1) line u) = true)
    (htrace : (u.after (Session.run line)).trace = u.trace ++ es)
    (h' : (u.after (Session.run line)).Chatted w') : Served w (line :: rest) [(line, es)] w'
  | stayed {w u w' : World} {line : String} {es : List Event} {rest : List String}
    {runs : List (String × List Event)} (h : w.Chatted u)
    (hexit : Deed.exits (Session.lineDeeds (Session.maxNesting + 1) line u) = false)
    (htrace : (u.after (Session.run line)).trace = u.trace ++ es)
    (hrest : Served (u.after (Session.run line)) rest runs w') :
    Served w (line :: rest) ((line, es) :: runs) w'

/-- Chatter in front of the first line does not bear on what is served. -/
theorem Served.after_chatter {w u w' : World} {lines : List String} {runs : List (String × List Event)}
    (h : w.Chatted u) (hserved : Served u lines runs w') : Served w lines runs w' := by
  cases hserved with
  | ended h' => exact .ended (h.trans h')
  | left rest h' hexit htrace hlast => exact .left rest (h.trans h') hexit htrace hlast
  | stayed h' hexit htrace hrest => exact .stayed (h.trans h') hexit htrace hrest

/-- A prompt ran a line and was told whether to leave. -/
structure Ran (w : World) (line : String) (es : List Event) (leave : Bool) (w' : World) : Prop where
  /-- The prompt is told so. -/
  run : (runLine line).run w = .ok leave w'
  /-- It is to leave exactly if a dispatch that returned asked to exit. -/
  exits : Deed.exits (Session.lineDeeds (Session.maxNesting + 1) line w) = leave
  /-- The run brings these events to the trace. -/
  trace : (w.after (Session.run line)).trace = w.trace ++ es
  /-- Behind the run there is only its report. -/
  chatted : (w.after (Session.run line)).Chatted w'

/-- **A line is run alike** in an ordinary world without an exit that was asked for, and in one that is the
same but for the trace. -/
theorem exists_ran {w u : World} (hw : w.Ordinary) (hexit : w.session.exitRequested = false)
    (hsame : w.SameButTrace u) (line : String) : ∃ es leave w' u', Ran w line es leave w' ∧
      Ran u line es leave u' ∧ w'.Ordinary ∧ w'.session.exitRequested = leave ∧ w'.SameButTrace u' := by
  have hexits {v : World} (hv : v.session.exitRequested = false) :
      Deed.exits (Session.lineDeeds (Session.maxNesting + 1) line v)
        = (v.after (Session.run line)).session.exitRequested := by
    rw [Session.run, (Session.tells_runNested _ line v).exit, hv, Bool.false_or]
  have hexit' : u.session.exitRequested = false := by rw [hsame.session, hexit]
  obtain ⟨hafter, es, htrace, htrace'⟩ := run_agree hsame line
  obtain ⟨w', hrun, hw', hord⟩ := run_runLine hw line
  obtain ⟨u', hrun', hu', -⟩ := run_runLine (hsame.ordinary hw) line
  have hleave := congrArg Session.exitRequested hafter.session
  rw [hleave] at hrun'
  exact ⟨es, _, w', u', ⟨hrun, hexits hexit, htrace, hw'⟩,
    ⟨hrun', (hexits hexit').trans hleave, htrace', hu'⟩, hord,
    congrArg Session.exitRequested hw'.session, hafter.chatted hw' hu'⟩

section

variable {m m' : Manner} (hm : m.Chats) (hm' : m'.Chats)

include hm hm'

/-- **Two prompts agree on what they serve**, whatever they say meanwhile. The induction is on the answers;
what carries it is that the worlds stay the same but for the trace, ordinary, and without an exit that was
asked for. -/
theorem loop_agree (answers : List (Option String)) {w u : World} (hw : w.Ordinary)
    (hexit : w.session.exitRequested = false) (hsame : w.SameButTrace u) :
    ∃ runs w' u', (loop m answers).run w = .ok () w' ∧ (loop m' answers).run u = .ok () u' ∧
      Served w (linesOf answers) runs w' ∧ Served u (linesOf answers) runs u' ∧
      w'.SameButTrace u' := by
  induction answers generalizing w u with
  | nil =>
    obtain ⟨w', hrun, hw'⟩ := chats_bind hm.ask hm.farewell w
    obtain ⟨u', hrun', hu'⟩ := chats_bind hm'.ask hm'.farewell u
    exact ⟨[], w', u', hrun, hrun', .ended hw', .ended hu', hsame.chatted hw' hu'⟩
  | cons answer? rest ih =>
    obtain ⟨w₁, hask, hw₁⟩ := hm.ask w
    obtain ⟨u₁, hask', hu₁⟩ := hm'.ask u
    have hsame₁ := hsame.chatted hw₁ hu₁
    have hord₁ := hw₁.ordinary hw
    have hexit₁ : w₁.session.exitRequested = false := by rw [hw₁.session, hexit]
    cases answer? with
    | none =>
      obtain ⟨w₂, hgo, hw₂⟩ := hm.interrupted w₁
      obtain ⟨u₂, hgo', hu₂⟩ := hm'.interrupted u₁
      obtain ⟨runs, w', u', hrun, hrun', hserved, hserved', hend⟩ :=
        ih (hw₂.ordinary hord₁) (by rw [hw₂.session, hexit₁]) (hsame₁.chatted hw₂ hu₂)
      refine ⟨runs, w', u', ?_, ?_, hserved.after_chatter (hw₁.trans hw₂),
        hserved'.after_chatter (hu₁.trans hu₂), hend⟩
      · rw [loop, run_bind_ok hask, run_bind_ok hgo, hrun]
      · rw [loop, run_bind_ok hask', run_bind_ok hgo', hrun']
    | some typed =>
      by_cases hblank : Text.strip typed = ""
      · -- A blank line is no line that is served.
        have hlines : linesOf (some typed :: rest) = linesOf rest := by simp [linesOf, hblank]
        obtain ⟨runs, w', u', hrun, hrun', hserved, hserved', hend⟩ := ih hord₁ hexit₁ hsame₁
        rw [hlines]
        refine ⟨runs, w', u', ?_, ?_, hserved.after_chatter hw₁, hserved'.after_chatter hu₁, hend⟩
        · rw [loop, run_bind_ok hask, if_pos hblank, hrun]
        · rw [loop, run_bind_ok hask', if_pos hblank, hrun']
      · have hlines : linesOf (some typed :: rest) = Text.strip typed :: linesOf rest := by
          simp [linesOf, hblank]
        obtain ⟨es, leave, w₂, u₂, hran, hran', hord₂, hexit₂, hsame₂⟩ :=
          exists_ran hord₁ hexit₁ hsame₁ (Text.strip typed)
        rw [hlines]
        cases leave with
        | true =>
          refine ⟨[(_, es)], w₂, u₂, ?_, ?_, .left _ hw₁ hran.exits hran.trace hran.chatted,
            .left _ hu₁ hran'.exits hran'.trace hran'.chatted, hsame₂⟩
          · rw [loop, run_bind_ok hask, if_neg hblank, run_bind_ok hran.run]
            rfl
          · rw [loop, run_bind_ok hask', if_neg hblank, run_bind_ok hran'.run]
            rfl
        | false =>
          -- The report of the line and the next question are both chatter in front of the rest.
          obtain ⟨runs, w', u', hrun, hrun', hserved, hserved', hend⟩ := ih hord₂ hexit₂ hsame₂
          refine ⟨(_, es) :: runs, w', u', ?_, ?_,
            .stayed hw₁ hran.exits hran.trace (hserved.after_chatter hran.chatted),
            .stayed hu₁ hran'.exits hran'.trace (hserved'.after_chatter hran'.chatted), hend⟩
          · rw [loop, run_bind_ok hask, if_neg hblank, run_bind_ok hran.run]
            exact hrun
          · rw [loop, run_bind_ok hask', if_neg hblank, run_bind_ok hran'.run]
            exact hrun'

end

/-! ## The prompts -/

/-- **The two prompts agree.** Given the same answers in an ordinary world where no exit was asked for, both
end without a fault. They serve the same lines with the same runs, each of which brings the same events, and
leave worlds that are the same but for the trace. A line and the stripped line are run alike. -/
theorem prompts_agree {w : World} (hw : w.Ordinary) (hexit : w.session.exitRequested = false)
    (prompt : String) (answers : List (Option String)) :
    (∃ runs w₁ w₂, (simple prompt answers).run w = .ok () w₁ ∧ (richOn answers).run w = .ok () w₂ ∧
      Served w (linesOf answers) runs w₁ ∧ Served w (linesOf answers) runs w₂ ∧
      w₁.SameButTrace w₂) ∧
    ∀ (line : String) (u : World), SameEnd Session.AlikeButReports ((Session.run line).run u)
      ((Session.run (Text.strip line)).run u) := by
  refine ⟨?_, fun line u => Session.matches_run_strip line u u ⟨rfl, rfl, trivial⟩⟩
  have hsimple : Chats (printLine simpleBanner) := chats_emit rfl
  have hrich : Chats richBanner := chats_bind (chats_emit rfl) (chats_bind (chats_emit rfl) (chats_emit rfl))
  obtain ⟨u₁, hbanner, hu₁⟩ := hsimple w
  obtain ⟨u₂, hbanner', hu₂⟩ := hrich w
  have hself : w.SameButTrace w := rfl
  have hsame : u₁.SameButTrace u₂ := hself.chatted hu₁ hu₂
  obtain ⟨runs, w₁, w₂, hrun, hrun', hserved, hserved', hend⟩ :=
    loop_agree (Manner.chats_simple prompt) Manner.chats_rich answers (hu₁.ordinary hw)
      (by rw [hu₁.session, hexit]) hsame
  refine ⟨runs, w₁, w₂, (run_bind_ok hbanner _).trans hrun, ?_, hserved.after_chatter hu₁,
    hserved'.after_chatter hu₂, hend⟩
  exact (run_bind_ok hbanner' _).trans hrun'

/-- A world with a command that prints a line, and with one that asks to exit. -/
def promptWorld : World :=
  { (default : World) with
    registries := ⟨⟨[(default, ⟨⟨[
      ("greet", Declaration.entry ⟨"greet", "Greet someone", none, [], false⟩ (.script [.print "Hello!"])),
      ("leave", Declaration.entry ⟨"leave", "Leave the shell", none, [], false⟩
        (.script [.finish (.bool true)]))]⟩, {}⟩)]⟩, {}, 1⟩
    classifier := .everything
    history := .memory [] }

/-- The world of the sample is ordinary. -/
theorem ordinary_promptWorld : promptWorld.Ordinary where
  registries := .of_contents (by decide)
  files := by
    intro place m h
    exact nomatch h

/-- Both prompts serve the sample up to the line that leaves, and a line does the same with blanks around
it. -/
theorem prompts_agree_until_leave :
    let answers := [some " greet ", none, some " ", some "leave", some "greet"]
    (promptWorld.Ordinary ∧ promptWorld.session.exitRequested = false) ∧
      linesOf answers = ["greet", "leave", "greet"] ∧
      (∃ runs w₁ w₂, (simple "$ " answers).run promptWorld = .ok () w₁ ∧
        (richOn answers).run promptWorld = .ok () w₂ ∧
        Served promptWorld ["greet", "leave", "greet"] runs w₁ ∧
        Served promptWorld ["greet", "leave", "greet"] runs w₂ ∧ w₁.SameButTrace w₂) ∧
      SameEnd Session.AlikeButReports ((Session.run " greet ").run promptWorld)
        ((Session.run (Text.strip " greet ")).run promptWorld) ∧
      (promptWorld.after (simple "$ " answers)).session.name = some "leave" := by
  intro answers
  have hlines : linesOf answers = ["greet", "leave", "greet"] := by decide
  obtain ⟨hserve, hstrip⟩ := prompts_agree ordinary_promptWorld rfl "$ " answers
  rw [hlines] at hserve
  exact ⟨⟨ordinary_promptWorld, rfl⟩, hlines, hserve, hstrip " greet " promptWorld,
    by decide +kernel⟩

end Prompt

end CommandShell
