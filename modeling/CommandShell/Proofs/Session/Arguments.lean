import CommandShell.Proofs.Command.Arguments
import CommandShell.Proofs.Session.Trace

/-! # From what is typed to what a handler is given

An internal command has its name and its arguments from the tokens of its segment
(`Line.eq_internal_of_readSegment`). When it is dispatched, the handler of its entry is given these
arguments, and a call that returns is recorded as one entry, the name with the arguments behind it. On
the way no argument is lost, comes twice or changes places within its kind (`Session.arguments_arrive`). -/

namespace CommandShell

open Argument

/-! ## Reading -/

namespace Reading

/-- **An internal command** that was read has the name and the arguments of its reading. -/
theorem eq_internal_of_command {segment : List Char} {isInternal : Bool} {r : Reading} {c : Command}
    (h : r.command segment isInternal = some c) (hc : c.isSystem = false) :
    ∃ name tokens, r = .named name tokens ∧ c = .internal name (values tokens) (parameters tokens) := by
  cases r with
  | nothing => cases h
  | forHost text =>
    cases h
    cases hc
  | named name tokens =>
    cases isInternal with
    | false =>
      cases h
      cases hc
    | true =>
      have hcommand : some (Command.internal name (classify tokens).1 (classify tokens).2) = some c := h
      rw [classify_eq] at hcommand
      exact ⟨name, tokens, rfl, (Option.some.inj hcommand).symm⟩

/-- A segment is read as a name and its tokens if these are its words. -/
theorem ofWords_eq_named_iff {words : List (List Char)} {name : String} {tokens : List String} :
    ofWords words = .named name tokens ↔ words.map String.ofList = name :: tokens := by
  cases words with
  | nil => simp [ofWords]
  | cons t ts => simp [ofWords]

/-- A segment with a name has the name and the arguments as its tokens. -/
theorem tokens_of_ofSegment {segment : List Char} {name : String} {tokens : List String}
    (h : ofSegment segment = .ok (.named name tokens)) :
    (Token.ofChars segment).map (·.map String.ofList) = .ok (name :: tokens) := by
  unfold ofSegment at h
  split at h
  · -- A segment that is marked for the host has no name.
    injection h with hmarked
    split at hmarked
    · cases hmarked
    · cases hmarked
  · cases hwords : Token.ofChars segment with
    | error fault =>
      rw [hwords] at h
      cases h
    | ok words =>
      rw [hwords] at h
      exact congrArg Except.ok (ofWords_eq_named_iff.mp (Except.ok.inj h))

end Reading

/-- **An internal command** consists of the tokens of its segment. -/
theorem Line.eq_internal_of_readSegment {ask : String → Shell Bool} {segment : List Char} {c : Command}
    {w v : World} (h : (readSegment ask segment).run w = .ok (.ok (some c)) v)
    (hc : c.isSystem = false) :
    ∃ name tokens, (Token.ofChars segment).map (·.map String.ofList) = .ok (name :: tokens) ∧
      c = .internal name (values tokens) (parameters tokens) := by
  have hnamed {r : Reading} {isInternal : Bool} (hreading : Reading.ofSegment segment = .ok r)
      (hcommand : r.command segment isInternal = some c) :
      ∃ name tokens, (Token.ofChars segment).map (·.map String.ofList) = .ok (name :: tokens) ∧
        c = .internal name (values tokens) (parameters tokens) := by
    obtain ⟨name, tokens, rfl, hname⟩ := Reading.eq_internal_of_command hcommand hc
    exact ⟨name, tokens, Reading.tokens_of_ofSegment hreading, hname⟩
  unfold readSegment at h
  split at h
  · cases h
  · rename_i hreading
    obtain ⟨isInternal, u, -, hrest⟩ := Shell.run_bind_eq_ok_iff.mp h
    injection hrest with hcommand
    exact hnamed hreading (Except.ok.inj hcommand)
  · rename_i hreading
    injection h with hcommand
    exact hnamed hreading (Except.ok.inj hcommand)

/-! ## Recording -/

/-- What a write puts behind the bytes of a file stands there behind them. -/
theorem bytesAt_of_append {w : World} {name : String} {data : List UInt8} {files : FileTree}
    (h : w.files.write w.cwd name (fun old => .bytes ((old.map Files.contentBytes).getD [] ++ data))
      = .ok files) :
    ({ w with files } : World).bytesAt name = w.bytesAt name ++ data := by
  obtain ⟨place, old, _, hafter, hbefore⟩ := FileTree.read_of_write h
  simp only [World.bytesAt, hafter, hbefore]
  cases old with
  | none => rfl
  | some content => rfl

/-- **An entry that was recorded** is one act, and the history grew by just this entry. -/
theorem recorded_of_run_record {w w' : World} {entry : String}
    (h : (record entry).run w = .ok () w') :
    w.Recorded [entry] w' ∧ w'.acts = w.acts ++ [.recorded entry] := by
  -- The report stands in front of the act, and is none.
  have hacts (v : World) (htrace : v.trace
      = (w.emitted (w.reports .debug .history ("History += " ++ Text.quoted entry))).trace) :
      (v.emitted [.recorded entry]).acts = w.acts ++ [.recorded entry] := by
    rw [World.acts_emitted, World.acts, htrace, ← World.acts, World.acts_reported]
    rfl
  cases hhistory : w.history with
  | memory kept =>
    rw [run_record_of_memory hhistory] at h
    cases h
    simp only [World.Recorded, hhistory]
    exact ⟨trivial, hacts { w with history := _, trace := _ } rfl⟩
  | file path =>
    rw [run_record_of_file hhistory] at h
    obtain ⟨⟨⟩, w₁, happend, hemit⟩ := Shell.run_bind_eq_ok_iff.mp h
    unfold Files.appendBytes at happend
    cases hemit
    obtain ⟨f, hf⟩ | ⟨name, files, hname, hwrite, hrun⟩ := Files.change_cases path
      (fun t cwd p => t.write cwd p fun old =>
        .bytes ((old.map Files.contentBytes).getD [] ++ HistoryFormat.written w.time entry))
      (w.emitted (w.reports .debug .history ("History += " ++ Text.quoted entry)))
    · rw [hf] at happend
      cases happend
    · rw [hrun] at happend
      cases happend
      refine ⟨?_, hacts _ rfl⟩
      simp only [World.Recorded, hhistory]
      refine ⟨hhistory, fun name' hname' => ?_⟩
      obtain rfl : name = name' := Except.ok.inj (hname.symm.trans hname')
      rw [List.flatMap_singleton]
      exact bytesAt_of_append hwrite

/-! ## Dispatching -/

namespace Session

/-- The entry that the registry of the context finds under the name of a command is called. -/
theorem run_entryOf_of_find {u : World} {name : String} {e : Entry} (hname : name ≠ "")
    (hfind : (u.registries.get u.context.registry).find name = .ok (some e)) (vs ps : List String) :
    (Dispatch.entryOf (.internal name vs ps)).run u = .ok (some e) u := by
  have hlookup : (Shell.lookup u.context.registry name).run u = .ok (some e) u := by
    unfold Shell.lookup
    rw [Shell.run_bind_ok (EStateM.run_get u), hfind]
    rfl
  rw [Dispatch.entryOf_internal hname, Shell.run_bind_ok (EStateM.run_get u)]
  exact hlookup

/-- A command is dispatched from a world by calling an entry with arguments, and if this returns, the
history grows by a text. -/
structure CallsWith (rerun reread : String → Shell Unit) (c : Command) (e : Entry)
    (arguments : List String) (text : String) (u : World) : Prop where
  /-- A handler of actions is called with the arguments, behind the context if it takes that. -/
  script : ∀ body, e.handler = .script body → Dispatch.callHandler rerun reread e arguments = (do
    Shell.emit (.called e.name (given e arguments))
    Dispatch.runScript rerun reread e.passContext body)
  /-- So is a builtin command. -/
  builtin : ∀ b origin, e.handler = .builtin b origin →
    Dispatch.callHandler rerun reread e arguments = b.call origin arguments
  /-- The command does what the call does and then records the text, but for reports in front. -/
  runs : ∃ reports : List Event, (∀ r ∈ reports, r.isReport = true) ∧
    (Dispatch.dispatch rerun reread c).run u = (Dispatch.callHandler rerun reread e arguments >>=
      fun value => do record text; pure value).run (u.emitted reports)
  /-- If it succeeds, the history grew by the text behind the call. -/
  records : ∀ value v, (Dispatch.dispatch rerun reread c).run u = .ok value v →
    ∃ reports u', (∀ r ∈ reports, r.isReport = true) ∧
      (Dispatch.callHandler rerun reread e arguments).run (u.emitted reports) = .ok value u' ∧
      u'.Recorded [text] v ∧ v.acts = u'.acts ++ [.recorded text]

/-- **A command whose name is found** calls the entry with its values and then its parameters. -/
theorem callsWith_of_find {rerun reread : String → Shell Unit} {u : World} {name : String} {e : Entry}
    (hname : name ≠ "") (hfind : (u.registries.get u.context.registry).find name = .ok (some e))
    (vs ps : List String) : CallsWith rerun reread (.internal name vs ps) e (vs ++ ps)
      (" ".intercalate (name :: (vs ++ ps))) u := by
  have hentry := run_entryOf_of_find hname hfind vs ps
  have hdispatch : (Dispatch.dispatch rerun reread (.internal name vs ps)).run u = _ :=
    run_dispatch hentry
  rw [Dispatch.after_announce, Command.text, Command.fields_internal] at hdispatch
  have hreports (message : String) (r : Event) (h : r ∈ u.reports .debug .dispatcher message) :
      r.isReport = true := World.isReport_of_mem_reports h
  refine ⟨fun body h => callHandler_of_script h _ _ _, fun b origin h => callHandler_of_builtin h _ _ _,
    ⟨_, hreports _, hdispatch⟩, fun value v h => ?_⟩
  rw [hdispatch] at h
  obtain ⟨value', u', hcall, hrest⟩ := Shell.run_bind_eq_ok_iff.mp h
  obtain ⟨⟨⟩, v', hrecord, hpure⟩ := Shell.run_bind_eq_ok_iff.mp hrest
  have hrecorded := recorded_of_run_record hrecord
  cases hpure
  exact ⟨_, u', hreports _, hcall, hrecorded⟩

/-- **What is typed arrives.** An internal command that is read from a segment has the first token as its
name and the others as its arguments, told apart by the grammar of parameters; none but the first bare
`--` is dropped. In any world in which the registry finds the name, the command calls the entry with the
values and then the parameters, and if this returns, the history grows by one text, the name and these
arguments with blanks between them. -/
theorem arguments_arrive {ask : String → Shell Bool} {segment : List Char} {c : Command} {w v : World}
    (hread : (Line.readSegment ask segment).run w = .ok (.ok (some c)) v)
    (hinternal : c.isSystem = false) :
    (∀ token, isParameter token = true ↔ token.toList.head? = some '-' ∧ 1 < token.toList.length ∧
      ¬ NegativeNumber token.toList) ∧
    ∃ name tokens, (Token.ofChars segment).map (·.map String.ofList) = .ok (name :: tokens) ∧
      c = ⟨some name, if values tokens = [] then none else some (values tokens),
        if parameters tokens = [] then none else some (parameters tokens), none⟩ ∧
      (values tokens ++ parameters tokens).Perm (tokens.erase endOfParameters) ∧
      ∀ (rerun reread : String → Shell Unit) (u : World) (e : Entry), name ≠ "" →
        (u.registries.get u.context.registry).find name = .ok (some e) →
        CallsWith rerun reread c e (values tokens ++ parameters tokens)
          (" ".intercalate (name :: (values tokens ++ parameters tokens))) u := by
  obtain ⟨name, tokens, htokens, rfl⟩ := Line.eq_internal_of_readSegment hread hinternal
  have hlisted (xs : List String) : Command.listed xs = if xs = [] then none else some xs := by
    unfold Command.listed
    simp only [List.isEmpty_iff]
  refine ⟨fun _ => isParameter_iff, name, tokens, htokens, ?_, perm_values_parameters tokens, ?_⟩
  · rw [Command.internal, hlisted, hlisted]
  · intro rerun reread u e hname hfind
    exact callsWith_of_find hname hfind _ _

/-- A segment with parameters and a negative number in front of a bare `--`, and more behind it. -/
def greetSegment : List Char := "greet -v Ada -3 --x -- -y --".toList

/-- The command of that segment. -/
def greetCommand : Command :=
  ⟨some "greet", some ["Ada", "-3", "-y", "--"], some ["-v", "--x"], none⟩

/-- The number is a value, only the first bare `--` is dropped, and what stands behind it are values. -/
theorem arguments_arrive_greet :
    ((Line.readSegment classify greetSegment).run sampleWorld = .ok (.ok (some greetCommand)) sampleWorld ∧
      greetCommand.isSystem = false) ∧
    (sampleWorld.registries.get sampleWorld.context.registry).find "greet" = .ok (some sampleEntry) ∧
    CallsWith (runNested maxNesting) setInput greetCommand sampleEntry
      ["Ada", "-3", "-y", "--", "-v", "--x"] "greet Ada -3 -y -- -v --x" sampleWorld := by
  have hread : (Line.readSegment classify greetSegment).run sampleWorld
      = .ok (.ok (some greetCommand)) sampleWorld := by rfl
  have hfind : (sampleWorld.registries.get sampleWorld.context.registry).find "greet"
      = .ok (some sampleEntry) := rfl
  refine ⟨⟨hread, rfl⟩, hfind, ?_⟩
  obtain ⟨-, name, tokens, htokens, -, -, hcalls⟩ := arguments_arrive hread rfl
  have htyped : (Token.ofChars greetSegment).map (·.map String.ofList)
      = .ok ["greet", "-v", "Ada", "-3", "--x", "--", "-y", "--"] := by rfl
  rw [htyped] at htokens
  cases htokens
  exact hcalls _ _ _ _ (by decide) hfind

end Session

end CommandShell
