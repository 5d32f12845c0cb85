import CommandShell.Proofs.Session.Parsing
import CommandShell.Proofs.Session.Steps

/-! # What a session does

`World.Did` says what a session did between two worlds: these acts, in this order, with nothing but
imports and reports in between, and the history grew by exactly the entries among them. Recording an
entry is one act (`run_record`). What running a text on the host does is written down without a world
(`hostStep`, `hostTrace`), and a text that is given to the host does just what its step says
(`Dispatch.ends_runSystem`). -/

namespace CommandShell

namespace World

/-- The bytes of the file of a name; a file that cannot be read has none. -/
def bytesAt (w : World) (name : String) : List UInt8 :=
  match w.files.read w.cwd name with
  | .ok r => Files.contentBytes r.2
  | .error _ => []

/-- The history grew by exactly these entries. -/
def Recorded (w : World) (entries : List String) (w' : World) : Prop :=
  match w.history with
  | .memory kept => w'.history = .memory (kept ++ entries)
  | .file path => w'.history = .file path ∧ ∀ name, Files.fileName path.text = .ok name →
      w'.bytesAt name = w.bytesAt name ++ entries.flatMap (HistoryFormat.written w.time)

/-- The acts between two worlds, in order. -/
structure Did (w : World) (es : List Event) (w' : World) : Prop where
  /-- These acts came to those before. -/
  acts : w'.acts = w.acts ++ es
  /-- The history grew by the entries among them. -/
  history : w.Recorded (es.filterMap Event.entry?) w'
  /-- The host is the same. -/
  host : w'.host = w.host
  /-- So is the program that answers probes. -/
  probeCommand : w'.probeCommand = w.probeCommand
  /-- It is the same time. -/
  time : w'.time = w.time
  /-- The session can go on. -/
  ready : w'.Ready

variable {u v w w' : World} {es fs : List Event}

/-- What is recorded first and what is recorded then is recorded together, if no time passes. -/
theorem Recorded.trans {xs ys : List String} (h : u.Recorded xs v) (h' : v.Recorded ys w)
    (htime : v.time = u.time) : u.Recorded (xs ++ ys) w := by
  unfold Recorded at h ⊢
  cases hhistory : u.history with
  | memory kept =>
    simp only [hhistory] at h ⊢
    simp only [Recorded, h] at h'
    rw [h', List.append_assoc]
  | file path =>
    simp only [hhistory] at h ⊢
    simp only [Recorded, h.1] at h'
    refine ⟨h'.1, ?_⟩
    intro name hname
    rw [h'.2 name hname, h.2 name hname, htime, List.flatMap_append, List.append_assoc]

/-- Nothing was recorded where history, files and working directory are the same. -/
theorem recorded_nil (hhistory : w'.history = w.history) (hfiles : w'.files = w.files)
    (hcwd : w'.cwd = w.cwd) : w.Recorded [] w' := by
  unfold Recorded bytesAt
  rw [hfiles, hcwd]
  cases h : w.history with
  | memory kept =>
    simp only [List.append_nil]
    rw [hhistory, h]
  | file path =>
    refine ⟨hhistory.trans h, ?_⟩
    intro name _
    rw [List.flatMap_nil, List.append_nil]

namespace Did

/-- Acts that were done one after the other were done together. -/
theorem trans (h : u.Did es v) (h' : v.Did fs w) : u.Did (es ++ fs) w where
  acts := by rw [h'.acts, h.acts, List.append_assoc]
  history := by
    rw [List.filterMap_append]
    exact h.history.trans h'.history h.time
  host := h'.host.trans h.host
  probeCommand := h'.probeCommand.trans h.probeCommand
  time := h'.time.trans h.time
  ready := h'.ready

end Did

/-- Where the world was still, nothing was done. -/
theorem Still.did (h : w.Still w') (hready : w'.Ready) : w.Did [] w' where
  acts := by rw [h.acts, List.append_nil]
  history := recorded_nil h.history h.files h.cwd
  host := h.host
  probeCommand := h.probeCommand
  time := h.time
  ready := hready

/-- A ready world is ready without doing anything. -/
theorem Ready.did_nil (h : w.Ready) : w.Did [] w := (Still.refl w).did h

/-- Acts that add nothing to the history only come to the trace. -/
theorem Ready.did_emitted (h : w.Ready) (hacts : ∀ e ∈ es, e.isAct = true ∧ e.entry? = none) :
    w.Did es (w.emitted es) := by
  have hentries : es.filterMap Event.entry? = [] :=
    List.filterMap_eq_nil_iff.mpr fun e he => (hacts e he).2
  refine ⟨?_, ?_, rfl, rfl, rfl, ⟨h.commands, h.modules, h.records⟩⟩
  · rw [acts_emitted, List.filter_eq_self.mpr fun e he => (hacts e he).1]
  · rw [hentries]
    exact recorded_nil rfl rfl rfl

end World

open World

/-- Logging is no act. -/
theorem did_log {w : World} (h : w.Ready) (level : Level) (source : LogSource) (message : String) :
    w.Did [] (w.emitted (w.reports level source message)) := by
  obtain ⟨hready, hstill⟩ :=
    (Shell.calm_log level source message).of_ok (Shell.run_log level source message w) h
  exact hstill.did hready

/-! ## Recording -/

/-- What is appended to a file stands behind what stood there. -/
theorem bytesAt_appendBytes {u v : World} {path : Path} {data : List UInt8}
    (hrun : (Files.appendBytes path data).run u = .ok () v) : v.history = u.history ∧
      ∀ name, Files.fileName path.text = .ok name → v.bytesAt name = u.bytesAt name ++ data := by
  obtain ⟨f, hf⟩ | ⟨name, files, hname, hwrite, happend⟩ := Files.change_cases path
    (fun t cwd p => t.write cwd p fun old => .bytes ((old.map Files.contentBytes).getD [] ++ data)) u
  · exact nomatch hf.symm.trans hrun
  · cases happend.symm.trans hrun
    refine ⟨rfl, fun name' hname' => ?_⟩
    cases hname.symm.trans hname'
    obtain ⟨place, old, -, hafter, hbefore⟩ := FileTree.read_of_write hwrite
    have hold : u.bytesAt name = (old.map Files.contentBytes).getD [] := by
      rw [bytesAt, hbefore]
      cases old with
      | none => rfl
      | some content => rfl
    rw [hold, bytesAt, hafter]
    rfl

/-- **Recording an entry** adds exactly this entry to the history. -/
theorem run_record {w : World} (h : w.Ready) (entry : String) :
    ∃ w', (record entry).run w = .ok () w' ∧ w.Did [.recorded entry] w' ∧ w'.session = w.session := by
  have hlog := Shell.run_log .debug .history ("History += " ++ Text.quoted entry) w
  have hdid := did_log h .debug .history ("History += " ++ Text.quoted entry)
  set w₁ := w.emitted (w.reports .debug .history ("History += " ++ Text.quoted entry)) with hw₁
  have hsession : w₁.session = w.session := rfl
  -- The event comes last, behind the report and the change of the history.
  have hacts (w₂ : World) (htrace : w₂.trace = w₁.trace) :
      (w₂.emitted [.recorded entry]).acts = w₁.acts ++ [.recorded entry] := by
    rw [acts_emitted, World.acts, htrace]
    rfl
  unfold record
  rw [Shell.run_bind_ok hlog, Shell.run_bind_ok (EStateM.run_get w₁)]
  cases hhistory : w₁.history with
  | memory kept =>
    have hrecorded : w₁.Did [.recorded entry]
        ({ w₁ with history := .memory (kept ++ [entry]) }.emitted [.recorded entry]) := by
      refine ⟨hacts _ rfl, ?_, rfl, rfl, rfl, ?_⟩
      · simp only [Recorded, hhistory]
        rfl
      · refine ⟨hdid.ready.commands, hdid.ready.modules, ?_⟩
        intro path hpath
        cases hpath
    exact ⟨_, rfl, hdid.trans hrecorded, hsession⟩
  | file path =>
    obtain ⟨name, files, hname, hwrite⟩ := hdid.ready.records path hhistory
    obtain ⟨files₂, hwrite₂⟩ := FileTree.write_of_write hwrite fun old =>
      .bytes ((old.map Files.contentBytes).getD [] ++ HistoryFormat.written w₁.time entry)
    obtain ⟨place, old, -, hafter, -⟩ := FileTree.read_of_write hwrite₂
    have happend : (Files.appendBytes path (HistoryFormat.written w₁.time entry)).run w₁
        = .ok () { w₁ with files := files₂ } := Files.run_change_ok hname hwrite₂
    have hrecorded : w₁.Did [.recorded entry]
        ({ w₁ with files := files₂ }.emitted [.recorded entry]) := by
      refine ⟨hacts _ rfl, ?_, rfl, rfl, rfl, ?_⟩
      · simp only [Recorded, hhistory]
        exact ⟨rfl, fun name' hname' => ((bytesAt_appendBytes happend).2 name' hname').trans
          (congrArg _ (List.append_nil _).symm)⟩
      · refine ⟨hdid.ready.commands, fun m hm => hdid.ready.modules m ?_, fun path' hpath' => ?_⟩
        · -- No module is made by writing bytes: what is found now was found before.
          obtain ⟨d, hd, n, file, place, hfile, hread⟩ := hm
          refine ⟨d, hd, n, file, place, hfile, ?_⟩
          exact FileTree.read_of_read_written hwrite₂ hread fun old h => by cases h
        · obtain rfl : path = path' := History.file.inj (hhistory.symm.trans hpath')
          exact ⟨name, _, hname, FileTree.write_of_read hafter fun _ => .bytes []⟩
    exact ⟨_, Shell.run_bind_ok happend fun _ => Shell.emit (.recorded entry),
      hdid.trans hrecorded, hsession⟩

/-! ## Commands for the host -/

/-- An action ends in a world, with a fault or without one. -/
def Shell.Ends (a : Shell Unit) (w : World) (f? : Option Fault) (w' : World) : Prop :=
  a.run w = match f? with
    | none => .ok () w'
    | some f => .error f w'

/-- What running a text on the host does, and the fault that it ends with, if any: its program is
looked for, and if it is found the text is run and recorded. -/
def hostStep (host : Host) (program raw : String) : List Event × Option Fault :=
  let name := executableName raw
  if name = "" then ([], some (.unknownCommand (some "")))
  else if host.denied.contains program then
    ([.probe program name], some (.system .denied [program]))
  else if host.probes.contains program && host.executables.contains name then
    ([.probe program name, .run raw, .recorded raw], none)
  else ([.probe program name], some (.unknownCommand (some name)))

/-- What running some texts on the host does, one after the other up to the first fault. -/
def hostTrace (host : Host) (program : String) : List String → List Event × Option Fault
  | [] => ([], none)
  | raw :: rest =>
    match hostStep host program raw with
    | (es, some f) => (es, some f)
    | (es, none) => (es ++ (hostTrace host program rest).1, (hostTrace host program rest).2)

namespace Host

/-- Probing is one act. -/
theorem did_probe {w : World} (h : w.Ready) (name : String) :
    w.Did [.probe w.probeCommand name] (w.emitted [.probe w.probeCommand name]) := by
  refine h.did_emitted ?_
  intro e he
  rw [List.mem_singleton.mp he]
  exact ⟨rfl, rfl⟩

/-- A probe that is denied ends with a fault behind its one act. -/
theorem run_probe_denied {w : World} (hdenied : w.host.denied.contains w.probeCommand = true)
    (name : String) :
    (probe name).run w
      = .error (.system .denied [w.probeCommand]) (w.emitted [.probe w.probeCommand name]) := by
  unfold probe
  rw [Shell.run_bind_ok (EStateM.run_get w), Shell.run_bind_ok (Shell.run_emit _ w), if_pos hdenied]
  rfl

/-- A probe that may be run tells whether its program and the name are found. -/
theorem run_probe {w : World} (h : w.Ready)
    (hdenied : ¬w.host.denied.contains w.probeCommand = true) (name : String) :
    ∃ w', (probe name).run w
        = .ok (w.host.probes.contains w.probeCommand && w.host.executables.contains name) w' ∧
      w.Did [.probe w.probeCommand name] w' ∧ w'.session = w.session := by
  have hprobe := did_probe h name
  unfold probe
  rw [Shell.run_bind_ok (EStateM.run_get w), Shell.run_bind_ok (Shell.run_emit _ w), if_neg hdenied]
  cases hprobes : w.host.probes.contains w.probeCommand with
  | false =>
    refine ⟨_, (Shell.run_bind_ok (Shell.run_log _ _ _ _) _).trans rfl, ?_, rfl⟩
    exact hprobe.trans (did_log hprobe.ready _ _ _)
  | true =>
    rw [Bool.true_and]
    refine ⟨_, (Shell.run_bind_ok (Shell.run_log _ _ _ _) _).trans rfl, ?_, rfl⟩
    exact hprobe.trans (did_log hprobe.ready _ _ _)

/-- Running a text on the host is one act, however it ends. -/
theorem run_run {w : World} (h : w.Ready) (raw : String) :
    ∃ w', (Host.run raw).run w = .ok (w.host.returncode raw) w' ∧ w.Did [.run raw] w' ∧
      w'.session = w.session := by
  have hlog := did_log h .debug .process ("Running: " ++ raw)
  have hrun : World.Did _ [.run raw] _ := hlog.ready.did_emitted fun e he => by
    rw [List.mem_singleton.mp he]
    exact ⟨rfl, rfl⟩
  refine ⟨_, ?_, hlog.trans hrun, rfl⟩
  unfold Host.run
  rw [Shell.run_bind_ok (Shell.run_log _ _ _ w)]
  rfl

end Host

namespace Dispatch

/-- Running a command on the host is one act, and how it ends is only reported. -/
theorem did_runOnHost {w : World} (h : w.Ready) (raw : String) :
    ∃ w', (runOnHost raw).run w = .ok () w' ∧ w.Did [.run raw] w' ∧ w'.session = w.session := by
  obtain ⟨w₁, hrun, hdid, hsession⟩ := Host.run_run h raw
  unfold runOnHost
  rw [Shell.run_bind_ok hrun]
  split
  · exact ⟨_, Shell.run_log _ _ _ _, hdid.trans (did_log hdid.ready _ _ _), hsession⟩
  · exact ⟨w₁, rfl, hdid, hsession⟩

/-- **Running a text on the host** does what its step says. -/
theorem ends_runSystem {w : World} (h : w.Ready) {raw : String} (hraw : Line.isBlank raw = false) :
    ∃ w', Shell.Ends (runSystem [some raw]) w (hostStep w.host w.probeCommand raw).2 w' ∧
      w.Did (hostStep w.host w.probeCommand raw).1 w' ∧ w'.session = w.session := by
  unfold Shell.Ends hostStep
  rw [runSystem_cons hraw, isSystemCommand]
  by_cases hname : executableName raw = ""
  · simp only [hname, if_true]
    exact ⟨w, rfl, h.did_nil, rfl⟩
  simp only [if_neg hname]
  by_cases hdenied : w.host.denied.contains w.probeCommand = true
  · simp only [if_pos hdenied]
    exact ⟨_, Shell.run_bind_error (Host.run_probe_denied hdenied _) _, Host.did_probe h _, rfl⟩
  simp only [if_neg hdenied]
  obtain ⟨w₁, hprobe, hdid, hsession⟩ := Host.run_probe h hdenied (executableName raw)
  rw [Shell.run_bind_ok hprobe]
  cases hfound : w.host.probes.contains w.probeCommand &&
      w.host.executables.contains (executableName raw) with
  | false => exact ⟨w₁, rfl, hdid, hsession⟩
  | true =>
    -- Whatever its return code is, the text is recorded behind the run.
    obtain ⟨w₂, hran, hdid₂, hsession₂⟩ := did_runOnHost hdid.ready raw
    obtain ⟨w₃, hrecord, hdid₃, hsession₃⟩ := run_record hdid₂.ready raw
    refine ⟨w₃, ?_, hdid.trans (hdid₂.trans hdid₃), hsession₃.trans (hsession₂.trans hsession)⟩
    exact (Shell.run_bind_ok hran _).trans (Shell.run_bind_ok hrecord _)

end Dispatch

end CommandShell
