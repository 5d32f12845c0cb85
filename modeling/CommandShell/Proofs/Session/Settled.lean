import CommandShell.Proofs.Command.Reading
import CommandShell.Proofs.Loader.Settled
import CommandShell.Proofs.Session.Found

/-! # Classification is settled

In a settled session nobody has to ask in the right order: whether a name is internal is answered in the
same way in all its worlds (`steadily_isInternal`), by `World.verdict` of the world at the start. So a
line is read as `parseUnder` reads it with these answers, one segment at a time, whatever was read,
loaded and executed before (`settled_afterCalls`). -/

namespace CommandShell

open World

/-! ## Who is internal -/

/-- Whether a normal name is internal in a settled session. If the search for modules fails, only what is
registered is known. -/
def World.verdict (w : World) (key : String) : Except Fault Bool :=
  match Loader.index.run w with
  | .ok t _ => .ok (t.keys.contains key || decide (w.WillAnswer w key))
  | .error f _ => if w.commands.Answers key then .ok true else .error f

namespace Session

variable {B : Builtin → Prop} {w u : World}

/-- What the registry answers is told, and nothing changes. -/
theorem run_isRegistered (hu : Remains B w u) (name : String) :
    (isRegistered name).run u = .ok (decide (u.commands.Answers (normalName name))) u := by
  have hlookup {found : Option Entry} (h : u.commands.find name = .ok found) :
      (isRegistered name).run u = .ok found.isSome u := by
    unfold World.commands at h
    unfold isRegistered Shell.lookup
    simp only [bind_assoc]
    rw [Shell.run_bind_ok (EStateM.run_get u), Shell.run_bind_ok (EStateM.run_get u), h]
    rfl
  obtain ⟨hanswers, e, hfind, -⟩ | ⟨hanswers, hfind⟩ := hu.commands.closed.find_cases name
  · rw [hlookup hfind, decide_eq_true hanswers]
    rfl
  · rw [hlookup hfind, decide_eq_false hanswers]
    rfl

/-- If the search for modules fails, no more will be answered than is. -/
theorem willAnswer_iff_of_error {f : Fault} {w' : World} (hindex : Loader.index.run w = .error f w')
    (key : String) : w.WillAnswer u key ↔ u.commands.Answers key := by
  apply willAnswer_iff_of_tried
  rw [found, hindex]
  exact fun f hf => absurd hf List.not_mem_nil

/-- What a world of the session answers is internal from the start. -/
theorem verdict_of_answers (hu : Remains B w u) {key : String} (h : u.commands.Answers key) :
    w.verdict key = .ok true := by
  have hwill : w.WillAnswer w key := (hu.names key).mp (.inl h)
  unfold verdict
  split
  · rw [decide_eq_true hwill, Bool.or_true]
  · rename_i hindex
    rw [if_pos ((willAnswer_iff_of_error hindex key).mp hwill)]

/-- **Whether a name is internal** is answered in the same way in all worlds of a settled session. -/
theorem steadily_isInternal (h : w.Settled B) (name : String) :
    Shell.Steadily (Remains B w) (w.verdict (normalName name)) (isInternal name) := by
  intro u hu
  have hregistered := run_isRegistered hu name
  by_cases hanswers : u.commands.Answers (normalName name)
  · rw [decide_eq_true hanswers] at hregistered
    rw [verdict_of_answers hu hanswers]
    exact Shell.steadily_of_ok (Shell.run_bind_ok hregistered _) hu
  · rw [decide_eq_false hanswers] at hregistered
    unfold verdict
    cases hindex : Loader.index.run w with
    | error f w' =>
      -- Nothing can be loaded, so the registry answers no more than at the start.
      obtain ⟨v, hrun, hv⟩ := h.run_index_error hu hindex
      have havailable : Loader.available.run u = .error f v := Shell.run_bind_error hrun _
      have hsame := hu.names (normalName name)
      rw [willAnswer_iff_of_error hindex, willAnswer_iff_of_error hindex] at hsame
      simp only [if_neg (hsame.not.mp hanswers)]
      exact Shell.steadily_of_error ((Shell.run_bind_ok hregistered _).trans
        (Shell.run_bind_error havailable _)) hv
    | ok t w' =>
      obtain ⟨v, hrun, hv⟩ := h.run_index_ok hu hindex
      have havailable : Loader.available.run u = .ok _ v := Shell.run_bind_ok hrun _
      have hmem : (t.keys.mergeSort fun a b => decide (a ≤ b)).contains (normalName name)
          = t.keys.contains (normalName name) := by
        rw [Bool.eq_iff_iff, List.contains_iff_mem, List.contains_iff_mem, List.mem_mergeSort]
      dsimp only
      cases hkey : t.keys.contains (normalName name) with
      | true =>
        rw [hkey] at hmem
        refine Shell.steadily_of_ok ((Shell.run_bind_ok hregistered _).trans
          ((Shell.run_bind_ok havailable _).trans ?_)) hv
        rw [hmem]
        rfl
      | false =>
        rw [hkey] at hmem
        -- Once all modules are loaded, the registry answers whatever it was to answer.
        obtain ⟨n, v', hload, hv', hall⟩ := h.run_loadAll false hv hindex
        have hsame : v'.commands.Answers (normalName name) ↔ w.WillAnswer w (normalName name) :=
          (willAnswer_iff_of_tried hall _).symm.trans (hv'.names _)
        have hlast := run_isRegistered hv' name
        rw [show decide (v'.commands.Answers (normalName name)) = decide (w.WillAnswer w _) from
          decide_eq_decide.mpr hsame] at hlast
        refine Shell.steadily_of_ok ((Shell.run_bind_ok hregistered _).trans
          ((Shell.run_bind_ok havailable _).trans ?_)) hv'
        rw [Bool.false_or, hmem]
        exact (Shell.run_bind_ok hload _).trans hlast

/-- Who is internal is told by the verdict, in every world of the session. -/
theorem steadily_classify (h : w.Settled B) (name : String) :
    Shell.Steadily (Remains B w) (w.verdict (normalName name)) (classify name) := by
  intro u hu
  have hclassifier : u.classifier = .session := hu.classifier.trans h.classifier
  have hrun : (classify name).run u = (isInternal name).run u := by
    unfold classify
    rw [Shell.run_bind_ok (EStateM.run_get u), hclassifier]
  have hinternal := steadily_isInternal h name u hu
  unfold outcome World.after at hinternal ⊢
  rwa [hrun]

/-! ## Reading -/

/-- The commands of a line where each name is answered by itself. A fault of a bad value means that the
line cannot be read. -/
def parseUnder (answer : String → Except Fault Bool) (line : String) : Except Fault (List Command) :=
  match Line.read answer line.toList with
  | .ok (.ok cs) => .ok cs
  | .ok (.error _) => .ok []
  | .error f => if f.isValue then .ok [] else .error f

/-- **The class of a segment** is settled: it does not depend on when the segment is read. -/
theorem steadily_readSegment (h : w.Settled B) (segment : List Char) :
    Shell.Steadily (Remains B w) (Line.readSegment (fun n => w.verdict (normalName n)) segment)
      (Line.readSegment classify segment) := by
  unfold Line.readSegment
  split
  · exact Shell.steadily_pure _
  · exact (steadily_classify h _).bind fun _ => Shell.steadily_pure _
  · exact Shell.steadily_pure _

/-- Segments are read by the verdict, in every world of the session. -/
theorem steadily_readSegments (h : w.Settled B) (segments : List (List Char)) :
    Shell.Steadily (Remains B w) (Line.readSegments (fun n => w.verdict (normalName n)) segments)
      (Line.readSegments classify segments) := by
  induction segments with
  | nil => exact Shell.steadily_pure _
  | cons s ss ih =>
    refine (steadily_readSegment h s).bind fun r => ?_
    split
    · exact Shell.steadily_pure _
    · refine ih.bind fun rs => ?_
      split
      · exact Shell.steadily_pure _
      · exact Shell.steadily_pure _

/-- A line is read by the verdict, in every world of the session. -/
theorem steadily_read (h : w.Settled B) (line : List Char) :
    Shell.Steadily (Remains B w) (Line.read (fun n => w.verdict (normalName n)) line)
      (Line.read classify line) := by
  unfold Line.read
  split
  · exact Shell.steadily_pure _
  · exact steadily_readSegments h _

/-- **The commands of a line** are settled: they do not depend on when the line is read. -/
theorem steadily_parse (h : w.Settled B) (line : String) :
    Shell.Steadily (Remains B w) (parseUnder (fun n => w.verdict (normalName n)) line)
      (parse line) := by
  intro u hu
  obtain ⟨hend, hafter⟩ := steadily_read h line.toList u hu
  have hemitted {v : World} (es : List Event) (hv : Remains B w v) : Remains B w (v.emitted es) :=
    reporting_stays.emitted v es hv
  have hparse := run_parseWith classify line u
  cases hread : (Line.read classify line.toList).run u with
  | ok r v =>
    rw [outcome, hread] at hend
    rw [after_of_ok hread] at hafter
    rw [hread] at hparse
    rw [parseUnder, ← hend]
    cases r with
    | ok cs => exact Shell.steadily_of_ok hparse (hemitted _ hafter)
    | error f => exact Shell.steadily_of_ok hparse (hemitted _ hafter)
  | error f v =>
    rw [outcome, hread] at hend
    rw [after_of_error hread] at hafter
    rw [hread] at hparse
    rw [parseUnder, ← hend]
    -- A fault of a bad value is reported and gives no commands; any other leaves the parser.
    cases hvalue : f.isValue with
    | true =>
      simp only [hvalue, if_true] at hparse ⊢
      exact Shell.steadily_of_ok hparse (hemitted _ hafter)
    | false =>
      simp only [hvalue] at hparse ⊢
      exact Shell.steadily_of_error hparse hafter

/-! ## Calls -/

section

variable (h : w.Settled B) {rerun : String → Shell Unit}
  (hrerun : ∀ line, Shell.Within (Stays B w) (rerun line))

include h

/-- Taking a line leaves a session settled. -/
theorem stays_setInput (line : String) : Shell.Within (Stays B w) (setInput line) := by
  have hR := reporting_stays (B := B) (w := w)
  have htake (g : World → Session) :
      Shell.Within (Stays B w) (modify fun u => { u with session := g u } : Shell PUnit) :=
    fun u => stays_session (g u)
  unfold setInput
  split
  · exact hR.within_pure _
  · refine hR.within_bind (htake _) fun _ => ?_
    refine hR.within_bind (within_parse hR.toLogging (h.stays_loadAll false) line) fun cs => ?_
    exact hR.within_bind (htake _) fun _ => within_runSystemCommands hR stays_record cs

include hrerun

/-- **A neutral entry** is called and leaves a session settled. -/
theorem stays_callHandler {e : Entry} (he : e.Neutral B) (arguments : List String) :
    Shell.Within (Stays B w) (Dispatch.callHandler rerun setInput e arguments) := by
  have hR := reporting_stays (B := B) (w := w)
  unfold Dispatch.callHandler
  unfold Entry.Neutral at he
  cases hhandler : e.handler with
  | builtin b origin =>
    rw [hhandler] at he
    by_cases hhelp : b = .help
    · subst hhelp
      have hload : Shell.Heeds (Stays B w) (Loader.loadAll false) :=
        ⟨h.stays_loadAll false, Loader.faults_loadAll false⟩
      exact hR.within_bind (Builtin.heeds_showHelp hR.toPrinting hload).within fun _ => hR.within_pure _
    · have haside := (Builtin.aside_call hhelp origin arguments).within
      exact fun u => stays_of_aside (haside u) (.call u he hhelp origin arguments)
  | script body =>
    rw [hhandler] at he
    refine hR.within_bind (hR.heeds_emit _).within fun _ => ?_
    refine within_runScript hR h.stays_load stays_record hrerun (stays_setInput h) ?_
    intro hcontext hchanges
    rw [he hcontext] at hchanges
    exact nomatch hchanges

/-- Dispatching leaves the session settled. -/
theorem stays_dispatch (c : Command) :
    Shell.Within (Stays B w) (Dispatch.dispatch rerun setInput c) := by
  have hR := reporting_stays (B := B) (w := w)
  have hentry {u : World} (hu : Remains B w u) :
      (Dispatch.entryOf c).run u = .ok none u ∨
        ∃ e, e.Neutral B ∧ (Dispatch.entryOf c).run u = .ok (some e) u := by
    have hlookup {name : String} {found : Option Entry} (hfind : u.commands.find name = .ok found) :
        (do Shell.lookup (← get).context.registry name : Shell (Option Entry)).run u = .ok found u := by
      unfold World.commands at hfind
      unfold Shell.lookup
      rw [Shell.run_bind_ok (EStateM.run_get u), Shell.run_bind_ok (EStateM.run_get u), hfind]
      rfl
    unfold Dispatch.entryOf
    split
    · exact .inl rfl
    · exact .inl rfl
    · rename_i name _ _
      obtain ⟨_, e, hfind, key, he⟩ | ⟨_, hfind⟩ := hu.commands.closed.find_cases name
      · exact .inr ⟨e, hu.commands.handlers key e he, hlookup hfind⟩
      · exact .inl (hlookup hfind)
  intro u hu
  cases hempty : c.isEmpty with
  | true =>
    rw [Dispatch.dispatch_of_isEmpty hempty]
    exact hu
  | false =>
    rw [Dispatch.dispatch_eq hempty]
    obtain hnone | ⟨e, he, hsome⟩ := hentry hu
    · rw [after_bind_ok hnone]
      exact hu
    · rw [after_bind_ok hsome]
      refine hR.within_bind (hR.heeds_log _ _ _).within (fun _ => ?_) u hu
      refine hR.within_bind (stays_callHandler h hrerun he _) fun _ => ?_
      exact hR.within_bind (stays_record _) fun _ => hR.within_pure _

/-- An execution leaves the session settled. -/
theorem stays_executeWith : Shell.Within (Stays B w) (executeWith rerun) :=
  within_executeWith reporting_stays h.stays_load (stays_dispatch h hrerun) fun _ => stays_session _

end

/-- A call registers or removes a command by itself. -/
def Call.changesCommands : Call → Bool
  | .register _ _ => true
  | .add _ => true
  | .unregister _ => true
  | _ => false

/-- **A call** that does not change the commands by itself leaves a session settled. -/
theorem stays_perform (h : w.Settled B) {call : Call} (hcall : call.changesCommands = false) :
    Shell.Within (Stays B w) call.perform := by
  have hR := reporting_stays (B := B) (w := w)
  have hnested := within_runNested hR.toFrame (stays_setInput h) fun _ => stays_executeWith h
  cases call with
  | setInput line => exact stays_setInput h line
  | execute => exact stays_executeWith h (hnested maxNesting)
  | run line => exact hnested _ line
  | isInternal name =>
    exact hR.within_bind (within_isInternal hR.toLogging (h.stays_loadAll false) name) fun _ => hR.within_pure _
  | load name => exact h.stays_load name
  | loadAll verbose => exact hR.within_bind (h.stays_loadAll verbose) fun _ => hR.within_pure _
  | register d handler => exact nomatch hcall
  | add entry => exact nomatch hcall
  | unregister name => exact nomatch hcall

/-- **Classification does not depend on order or history.** In a settled session, after any calls that do
not change the commands by themselves: a name is internal if and only if it was at the start, and the
question fails as it did. So each segment is read by itself, and each line segment by segment, with the
answers of the start. -/
theorem settled_afterCalls (h : w.Settled B) {calls : List Call}
    (hcalls : ∀ call ∈ calls, call.changesCommands = false) :
    (∀ name, (w.afterCalls calls).outcome (isInternal name) = w.outcome (isInternal name)) ∧
      (∀ segment, (w.afterCalls calls).outcome (Line.readSegment classify segment)
        = Line.readSegment (fun name => w.outcome (isInternal name)) segment) ∧
      ∀ line, (w.afterCalls calls).outcome (parse line)
        = parseUnder (fun name => w.outcome (isInternal name)) line := by
  have hcalled : Remains B w (w.afterCalls calls) :=
    within_afterCalls reporting_stays.toFrame (fun call hcall => stays_perform h (hcalls call hcall)) w
      h.remains_self
  have hstart (name : String) : w.outcome (isInternal name) = w.verdict (normalName name) :=
    (steadily_isInternal h name w h.remains_self).1
  simp only [hstart]
  exact ⟨fun name => (steadily_isInternal h name _ hcalled).1,
    fun segment => (steadily_readSegment h segment _ hcalled).1,
    fun line => (steadily_parse h line _ hcalled).1⟩

/-! ## A module that fails half way -/

/-- What the module does: it registers a command with an alias, and then it raises something. -/
def brokenBody : List Action :=
  extraBody ++ [.raise ⟨"RuntimeError", .ordinary, some "broken"⟩]

/-- A session whose loader finds the one module. -/
def brokenWorld : World := { extraWorld with files := sampleTree (.script brokenBody) }

/-- The world with the broken module is settled. -/
theorem settled_brokenWorld : brokenWorld.Settled fun _ => False where
  classifier := rfl
  registry := rfl
  redirect := rfl
  commands := Registry.neutral_empty
  rooted d hd := by
    rw [List.mem_singleton.mp hd]
    exact isRooted_sampleDirectory
  modules f hf name place m hname hread := by
    rw [found_eq (run_index_sample rfl rfl)] at hf
    rw [List.mem_singleton.mp hf] at hname
    obtain rfl : "/cmds/extra/__init__.py" = name := Except.ok.inj hname
    have hsample : brokenWorld.files.read brokenWorld.cwd "/cmds/extra/__init__.py"
        = .ok (_, .code (.script brokenBody)) := read_sampleTree _ _
    rw [hsample] at hread
    cases hread
    exact (rfl : Action.addsOnly brokenBody = true)
  steady u hreaches d _ := by
    rw [(hreaches.files ⟨[], rfl⟩).1]
    exact .refl d _

/-- Some calls: names are asked for, modules loaded, and a line is read and executed. -/
def brokenCalls : List Call :=
  [.isInternal "more", .load "extra", .setInput "other; more", .execute, .loadAll true]

/-- Nothing changes for the session, though the only module fails half way. -/
theorem settled_broken :
    brokenWorld.Settled (fun _ => False) ∧
      (∀ call ∈ brokenCalls, call.changesCommands = false) ∧
      (∀ name, (brokenWorld.afterCalls brokenCalls).outcome (isInternal name)
        = brokenWorld.outcome (isInternal name)) ∧
      (∀ segment, (brokenWorld.afterCalls brokenCalls).outcome (Line.readSegment classify segment)
        = Line.readSegment (fun name => brokenWorld.outcome (isInternal name)) segment) ∧
      ∀ line, (brokenWorld.afterCalls brokenCalls).outcome (parse line)
        = parseUnder (fun name => brokenWorld.outcome (isInternal name)) line := by
  have hcalls : ∀ call ∈ brokenCalls, call.changesCommands = false := by
    simp [brokenCalls, Call.changesCommands]
  exact ⟨settled_brokenWorld, hcalls, settled_afterCalls settled_brokenWorld hcalls⟩

end Session

end CommandShell
