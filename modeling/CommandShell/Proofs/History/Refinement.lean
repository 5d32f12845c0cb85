import CommandShell.History.Basic
import CommandShell.Proofs.Files.Directories
import CommandShell.Proofs.History.Format
import Mathlib.Tactic.Set

/-! # A history in a file answers like one in memory

A history is asked for its entries in several ways, is given new ones, and is opened again
(`History.Call`). What it answers, and which entries it has afterwards, can be said of the entries alone
(`Call.answer`, `Call.next`). A world `Represents` some entries if its history has these in memory, or in
a file that reads as these, does not end within a line and can be written. One call then answers as the
entries say and leaves a world that represents the next ones (`Represents.perform`), and so does any run
of calls, whatever happens elsewhere between them (`Represents.answers`). So the two kinds of history
cannot be told apart: `answers_file_eq_memory`. -/

namespace CommandShell.History

open HistoryFormat

/-! ## Calls -/

/-- What can be asked of a history. -/
inductive Call
  | store (entry : String)
  | entries
  | tail (n : Int)
  | iterate
  | size
  | reopen
deriving Repr, DecidableEq

/-- What a call answers. -/
inductive Answer
  | nothing
  | entries (es : List String)
  | number (n : Nat)
deriving Repr, DecidableEq

namespace Call

/-- A call on the history of the shell. A history in memory is not opened again. -/
def perform : Call → Shell Answer
  | store e => do
    record e
    pure .nothing
  | entries => do pure (.entries (← historyEntries))
  | tail n => do
    if n ≤ 0 then pure (.entries [])
    else pure (.entries (lastOf n (← historyEntries)))
  | iterate => do pure (.entries (← historyEntries))
  | size => do pure (.number (← historyEntries).length)
  | reopen => do
    match (← get).history with
    | .memory _ => pure .nothing
    | .file path => do
      let history ← openFile path
      modify fun w => { w with history }
      pure .nothing

/-- What a call answers when the history has these entries. -/
def answer (es : List String) : Call → Answer
  | store _ => .nothing
  | entries => .entries es
  | tail n => .entries (lastOf n es)
  | iterate => .entries es
  | size => .number es.length
  | reopen => .nothing

/-- The entries after a call. -/
def next (es : List String) : Call → List String
  | store e => es ++ [e]
  | _ => es

end Call

/-- Something that happens in the world, and a call after it. -/
structure Turn where
  /-- What happens. -/
  meanwhile : World → World
  /-- The call. -/
  call : Call

/-- What the calls of some turns answer, or the faults that they end with. -/
def answers : List Turn → World → List (Except Fault Answer)
  | [], _ => []
  | turn :: turns, w =>
    match turn.call.perform.run (turn.meanwhile w) with
    | .ok a w' => .ok a :: answers turns w'
    | .error f w' => .error f :: answers turns w'

/-- What some calls answer when the history has these entries. -/
def expected : List String → List Turn → List Answer
  | _, [] => []
  | es, turn :: turns => turn.call.answer es :: expected (turn.call.next es) turns

/-! ## Histories in files -/

/-- The file of a name holds these bytes. A missing file that can be made holds none. -/
inductive Holds (t : FileTree) (cwd : WorkingDirectory) (name : String) : List UInt8 → Prop
  | missing {place : Location} {base : String}
      (h : t.resolve cwd .written name = .ok (.free place base)) : Holds t cwd name []
  | bytes {place : Location} {data : List UInt8}
      (h : t.read cwd name = .ok (place, .bytes data)) : Holds t cwd name data

/-- A history is kept in the file of a path, which holds these bytes and is ready for more. -/
structure Kept (path : Path) (w : World) (data : List UInt8) : Prop where
  /-- It is kept in this file. -/
  history : w.history = .file path
  /-- The bytes do not end within a line. -/
  ends : EndsLine data
  /-- The present time is one line. -/
  time : '\n' ∉ w.time.toList
  /-- The file holds the bytes. -/
  holds : ∃ name, Files.fileName path.text = .ok name ∧ Holds w.files w.cwd name data
  /-- Its directory is there. -/
  directory : ∃ name, Files.fileName path.parent.text = .ok name ∧
    w.files.find w.cwd name = .ok .directory

/-- The history has these entries, in memory or in the file of a path. -/
inductive Represents (path : Path) (w : World) : List String → Prop
  | memory {es : List String} (h : w.history = .memory es) : Represents path w es
  | file {data : List UInt8} (h : Kept path w data) :
    Represents path w (HistoryFormat.entries data)

/-- What happens between two worlds **spares** a history in the file of a path: where the path and its
directory lead, and what is found there, is the same. -/
structure Spares (path : Path) (w w' : World) : Prop where
  /-- The history is the same. -/
  history : w'.history = w.history
  /-- The present time stays one line. -/
  time : '\n' ∉ w.time.toList → '\n' ∉ w'.time.toList
  /-- The path and its directory lead where they led, from every working directory. -/
  leads : ∀ p ∈ [path, path.parent], ∀ name, Files.fileName p.text = .ok name → ∀ cwd last,
    w'.files.resolve cwd last name = w.files.resolve cwd last name

variable {path : Path} {w w' : World} {data : List UInt8} {es : List String}

/-- A name that leads to the same places in another tree holds the same bytes there. -/
theorem Holds.of_resolve {t t' : FileTree} {cwd cwd' : WorkingDirectory} {name : String}
    (h : Holds t cwd name data) (hleads : ∀ last, t'.resolve cwd' last name = t.resolve cwd last name) :
    Holds t' cwd' name data := by
  cases h with
  | missing h => exact .missing ((hleads _).trans h)
  | bytes h => exact .bytes (FileTree.read_eq_ok_iff.mpr ((hleads _).trans (FileTree.read_eq_ok_iff.mp h)))

/-- What spares a history leaves its entries. -/
theorem Represents.of_spares (h : Represents path w es) (hrooted : path.IsRooted)
    (hspares : Spares path w w') : Represents path w' es := by
  cases h with
  | memory h => exact .memory (hspares.history.trans h)
  | file h =>
    obtain ⟨name, hname, hholds⟩ := h.holds
    obtain ⟨directory, hdirectory, hfind⟩ := h.directory
    -- The working directory does not matter to an absolute path.
    have hpath (last : LastName) :
        w'.files.resolve w'.cwd last name = w.files.resolve w.cwd last name := by
      rw [hspares.leads path List.mem_cons_self name hname,
        FileTree.resolve_cwd (hrooted.rootOf_name hname) _ w'.cwd w.cwd]
    have hparent : w'.files.resolve w'.cwd .followed directory
        = w.files.resolve w.cwd .followed directory := by
      rw [hspares.leads path.parent (by simp) directory hdirectory,
        FileTree.resolve_cwd (hrooted.parent.rootOf_name hdirectory) _ w'.cwd w.cwd]
    refine .file ⟨hspares.history.trans h.history, h.ends, hspares.time h.time,
      ⟨name, hname, hholds.of_resolve hpath⟩, directory, hdirectory, ?_⟩
    unfold FileTree.find at hfind ⊢
    rw [hparent]
    exact hfind

/-! ## One call -/

/-- A file that holds some bytes can be given more. -/
theorem Holds.append {t : FileTree} {cwd : WorkingDirectory} {name : String} (h : Holds t cwd name data)
    (more : List UInt8) :
    ∃ t', t.write cwd name (fun old => .bytes ((old.map Files.contentBytes).getD [] ++ more)) = .ok t' ∧
      Holds t' cwd name (data ++ more) := by
  have hwrite : ∃ t', t.write cwd name
      (fun old => .bytes ((old.map Files.contentBytes).getD [] ++ more)) = .ok t' := by
    cases h with
    | missing h => exact ⟨_, by rw [FileTree.write, h]⟩
    | bytes h => exact ⟨_, FileTree.write_of_read h _⟩
  obtain ⟨t', hwrite⟩ := hwrite
  refine ⟨t', hwrite, ?_⟩
  -- What is written are the bytes that were read before, and those that come.
  obtain ⟨place, old, _, hafter, hbefore⟩ := FileTree.read_of_write hwrite
  have hold : (old.map Files.contentBytes).getD [] = data := by
    cases h with
    | missing h =>
      rw [FileTree.read, FileTree.resolve_followed h (by simp)] at hbefore
      cases old with
      | none => rfl
      | some content => cases hbefore
    | bytes h =>
      rw [h] at hbefore
      cases old with
      | none => cases hbefore
      | some content =>
        cases hbefore
        rfl
  rw [hold] at hafter
  exact .bytes hafter

/-- The entries of a history in a file are those that the bytes of the file read as, and asking for them
changes nothing. -/
theorem Holds.run_historyEntries {name : String} (h : Holds w.files w.cwd name data)
    (hhistory : w.history = .file path) (hname : Files.fileName path.text = .ok name) :
    historyEntries.run w = .ok (HistoryFormat.entries data) w := by
  unfold historyEntries History.entries
  rw [Shell.run_bind_ok (EStateM.run_get w), hhistory]
  cases h with
  | missing hfree =>
    have hfind : w.files.find w.cwd name = .error .noEntry := by
      rw [FileTree.find, FileTree.resolve_followed hfree (by simp)]
    rw [Shell.run_bind_ok (Files.run_reaches_of_error hname hfind)]
    rfl
  | bytes hread =>
    have hfind : w.files.find w.cwd name = .ok (.file (.bytes data)) := by
      rw [FileTree.find, FileTree.read_eq_ok_iff.mp hread]
    rw [Shell.run_bind_ok (Files.run_reaches_of_find hname hfind)]
    exact Shell.run_bind_ok (Files.run_readBytes hname hread) _

/-- The entries of a history are what it represents. -/
theorem Represents.run_historyEntries (h : Represents path w es) :
    historyEntries.run w = .ok es w := by
  cases h with
  | memory h =>
    unfold historyEntries History.entries
    rw [Shell.run_bind_ok (EStateM.run_get w), h]
    rfl
  | file h =>
    obtain ⟨name, hname, hholds⟩ := h.holds
    exact hholds.run_historyEntries h.history hname

/-- Storing an entry adds it to those that are represented. -/
theorem Represents.run_record (h : Represents path w es) (hrooted : path.IsRooted) (entry : String) :
    ∃ w', (record entry).run w = .ok () w' ∧ Represents path w' (es ++ [entry]) := by
  have hlog := Shell.run_log .debug .history ("History += " ++ Text.quoted entry) w
  set w₁ := w.emitted (w.reports .debug .history ("History += " ++ Text.quoted entry))
  unfold record
  rw [Shell.run_bind_ok hlog, Shell.run_bind_ok (EStateM.run_get w₁)]
  cases h with
  | memory h =>
    have hhistory : w₁.history = .memory es := h
    rw [hhistory]
    exact ⟨_, rfl, .memory rfl⟩
  | @file data h =>
    have hhistory : w₁.history = .file path := h.history
    rw [hhistory]
    obtain ⟨name, hname, hholds⟩ := h.holds
    obtain ⟨directory, hdirectory, hfind⟩ := h.directory
    obtain ⟨files, hwrite, hmore⟩ := hholds.append (written w.time entry)
    have happend : (Files.appendBytes path (written w.time entry)).run w₁ = .ok () { w₁ with files } :=
      Files.run_change_ok hname hwrite
    have hthere := FileTree.find_of_write hwrite (hrooted.parent.rootOf_name hdirectory) hfind
    refine ⟨_, Shell.run_bind_ok happend fun _ => Shell.emit (.recorded entry), ?_⟩
    rw [← entries_append_written h.ends h.time entry]
    exact .file ⟨hhistory, endsLine_written data w.time entry, h.time, ⟨name, hname, hmore⟩,
      directory, hdirectory, hthere⟩

/-- **One call** answers as the entries say, and leaves the next ones. -/
theorem Represents.perform (h : Represents path w es) (hrooted : path.IsRooted) (call : Call) :
    ∃ w', call.perform.run w = .ok (call.answer es) w' ∧ Represents path w' (call.next es) := by
  have hentries := h.run_historyEntries
  cases call with
  | store entry =>
    obtain ⟨w', hrun, hnext⟩ := h.run_record hrooted entry
    exact ⟨w', Shell.run_bind_ok hrun _, hnext⟩
  | entries => exact ⟨w, Shell.run_bind_ok hentries _, h⟩
  | iterate => exact ⟨w, Shell.run_bind_ok hentries _, h⟩
  | size => exact ⟨w, Shell.run_bind_ok hentries _, h⟩
  | tail n =>
    refine ⟨w, ?_, h⟩
    by_cases hn : n ≤ 0
    · simp only [Call.perform, Call.answer, lastOf, if_pos hn]
      rfl
    · simp only [Call.perform, if_neg hn]
      exact Shell.run_bind_ok hentries _
  | reopen =>
    -- A file is opened again where it is: its directory is there.
    cases h with
    | memory h =>
      refine ⟨w, ?_, .memory h⟩
      unfold Call.perform
      rw [Shell.run_bind_ok (EStateM.run_get w), h]
      rfl
    | file h =>
      obtain ⟨directory, hdirectory, hfind⟩ := h.directory
      have hmake := Files.run_makeDirectories_of_find hdirectory hfind
      have hopen : (openFile path).run w = .ok (.file path) w := Shell.run_bind_ok hmake _
      refine ⟨{ w with history := .file path }, ?_,
        .file ⟨rfl, h.ends, h.time, h.holds, h.directory⟩⟩
      unfold Call.perform
      rw [Shell.run_bind_ok (EStateM.run_get w), h.history]
      exact Shell.run_bind_ok hopen _

/-- A history in a file is opened with the directory of the file there. -/
theorem directory_of_openFile (hrooted : path.IsRooted) {backed : History}
    (h : (openFile path).run w = .ok backed w') :
    backed = .file path ∧ ∃ name, Files.fileName path.parent.text = .ok name ∧
      w'.files.find w'.cwd name = .ok .directory := by
  unfold openFile at h
  cases hmake : (Files.makeDirectories path.parent).run w with
  | error f w₁ =>
    rw [Shell.run_bind_error hmake] at h
    exact nomatch h
  | ok u w₁ =>
    rw [Shell.run_bind_ok hmake] at h
    cases h
    obtain ⟨name, hname⟩ := Files.exists_fileName_of_makeDirectories hmake
    exact ⟨rfl, name, hname, Files.find_of_makeDirectories hrooted.parent hname hmake⟩

/-! ## Many calls -/

/-- **A run of calls** answers as the entries say, whatever happens elsewhere between the calls. -/
theorem Represents.answers (h : Represents path w es) (hrooted : path.IsRooted) {turns : List Turn}
    (hturns : ∀ turn ∈ turns, ∀ u, Spares path u (turn.meanwhile u)) :
    History.answers turns w = (expected es turns).map .ok := by
  induction turns generalizing w es with
  | nil => rfl
  | cons turn turns ih =>
    have hspared := h.of_spares hrooted (hturns turn List.mem_cons_self w)
    obtain ⟨w', hrun, hnext⟩ := hspared.perform hrooted turn.call
    have hrest := ih hnext fun turn hturn => hturns turn (List.mem_cons_of_mem _ hturn)
    rw [History.answers, hrun, expected, List.map_cons, ← hrest]

/-- **A history in a file answers like one in memory.** Let the file of an absolute path be opened as a
history, where it holds some bytes that do not end within a line, or is missing and can be made. Then any
calls answer as they do when the entries that these bytes read as are in memory, and none of them fails,
as long as nothing else that happens between them touches the file. -/
theorem answers_file_eq_memory {t : RawText} {w w₁ : World} {backed : History} {name : String}
    {data : List UInt8} (habsolute : (Path.ofText t).isAbsolute = true)
    (hopen : (openFile (Path.ofText t)).run w = .ok backed w₁)
    (hname : Files.fileName (Path.ofText t).text = .ok name)
    (hholds : Holds w₁.files w₁.cwd name data) (hends : EndsLine data)
    (htime : '\n' ∉ w₁.time.toList) (turns : List Turn)
    (hturns : ∀ turn ∈ turns, ∀ u, Spares (Path.ofText t) u (turn.meanwhile u)) (m : World) :
    answers turns { w₁ with history := backed }
        = answers turns { m with history := .memory (HistoryFormat.entries data) } ∧
      ∀ a ∈ answers turns { w₁ with history := backed }, ∃ answer, a = .ok answer := by
  have hrooted := Path.isRooted_ofText habsolute
  have hmemory : Represents (Path.ofText t)
      { m with history := .memory (HistoryFormat.entries data) } (HistoryFormat.entries data) :=
    .memory rfl
  have hfile : Represents (Path.ofText t) { w₁ with history := backed }
      (HistoryFormat.entries data) := by
    obtain ⟨hbacked, directory, hdirectory, hfind⟩ := directory_of_openFile hrooted hopen
    exact .file ⟨hbacked, hends, htime, ⟨name, hname, hholds⟩, directory, hdirectory, hfind⟩
  rw [hfile.answers hrooted hturns, hmemory.answers hrooted hturns]
  refine ⟨rfl, ?_⟩
  intro a ha
  obtain ⟨answer, _, rfl⟩ := List.mem_map.mp ha
  exact ⟨answer, rfl⟩

/-- A world with one entry in a file. -/
def sampleWorld : World :=
  { (default : World) with
    time := "now"
    files := ⟨⟨[(["h"], .directory), (["h", "log"], .file (.bytes (written "then" "ls")))]⟩⟩ }

/-- An entry of two lines is stored, another working directory is entered, the file is opened again, and
the last entry is asked for. -/
def sampleTurns : List Turn :=
  [⟨id, .store "+a\n#b"⟩, ⟨fun w => { w with cwd := .ofLocation ["h"] }, .reopen⟩, ⟨id, .tail 1⟩]

/-- The calls of the sample answer in the file as they do in memory, with the entry that the file held and
the one that was stored. -/
theorem answers_file_eq_memory_sample :
    ((Path.ofText "/h/log").isAbsolute = true ∧
      (openFile (Path.ofText "/h/log")).run sampleWorld
        = .ok (.file (Path.ofText "/h/log")) sampleWorld ∧
      Holds sampleWorld.files sampleWorld.cwd "/h/log" (written "then" "ls") ∧
      ∀ turn ∈ sampleTurns, ∀ u, Spares (Path.ofText "/h/log") u (turn.meanwhile u)) ∧
    answers sampleTurns { sampleWorld with history := .file (Path.ofText "/h/log") }
      = [.ok .nothing, .ok .nothing, .ok (.entries ["+a\n#b"])] := by
  -- The conditions are evaluated on the tree of the sample, step by step along the path.
  have hname (c : String) (hc : ¬(c = "" ∨ c = ".") ∧ ¬c = ".." ∧ c.utf8ByteSize ≤ FileTree.maxName) :
      FileTree.IsName c := ⟨hc.1, hc.2.1, hc.2.2⟩
  have hdirectory : FileTree.Leads sampleWorld.files .followed FileTree.maxLinks [] ["", "h"]
      (.found ["h"] .directory) := by
    exact .skip (.inl rfl) (.enter (hname "h" (by decide)) rfl (by decide) .here)
  have hfile : FileTree.Leads sampleWorld.files .followed FileTree.maxLinks [] ["", "h", "log"]
      (.found (["h"] ++ ["log"]) (.file (.bytes (written "then" "ls")))) := by
    refine .skip (.inl rfl) (.enter (hname "h" (by decide)) rfl (by decide) ?_)
    exact .file (hname "log" (by decide)) rfl
  have hfind : sampleWorld.files.find sampleWorld.cwd "/h" = .ok .directory := by
    have hresolve : sampleWorld.files.resolve sampleWorld.cwd .followed "/h"
        = .ok (.found ["h"] .directory) := FileTree.walk_eq_ok_iff.mpr hdirectory
    rw [FileTree.find, hresolve]
  have hread : sampleWorld.files.read sampleWorld.cwd "/h/log"
      = .ok (["h", "log"], .bytes (written "then" "ls")) :=
    FileTree.read_eq_ok_iff.mpr (FileTree.walk_eq_ok_iff.mpr hfile)
  have habsolute : (Path.ofText "/h/log").isAbsolute = true := rfl
  have hopen : (openFile (Path.ofText "/h/log")).run sampleWorld
      = .ok (.file (Path.ofText "/h/log")) sampleWorld := by
    have hname : Files.fileName (Path.ofText "/h/log").parent.text = .ok "/h" := rfl
    have hmake := Files.run_makeDirectories_of_find hname hfind
    exact Shell.run_bind_ok hmake _
  have hspares : ∀ turn ∈ sampleTurns, ∀ u, Spares (Path.ofText "/h/log") u (turn.meanwhile u) := by
    intro turn hturn u
    simp only [sampleTurns, List.mem_cons, List.not_mem_nil, or_false] at hturn
    rcases hturn with rfl | rfl | rfl
    · exact ⟨rfl, id, fun _ _ _ _ _ _ => rfl⟩
    · exact ⟨rfl, id, fun _ _ _ _ _ _ => rfl⟩
    · exact ⟨rfl, id, fun _ _ _ _ _ _ => rfl⟩
  have hends : EndsLine (written "then" "ls") := endsLine_written [] "then" "ls"
  have hentries : HistoryFormat.entries (written "then" "ls") = ["ls"] :=
    entries_append_written (.inl rfl) (by decide) "ls"
  obtain ⟨hsame, _⟩ := answers_file_eq_memory habsolute hopen rfl (.bytes hread) hends (by decide)
    sampleTurns hspares default
  refine ⟨⟨habsolute, hopen, .bytes hread, hspares⟩, ?_⟩
  rw [hsame, hentries]
  rfl

end CommandShell.History
