import CommandShell.Proofs.Files.Places
import CommandShell.Proofs.History.Refinement
import CommandShell.Proofs.Shell.Aside

/-! # Where the entries of a history go

The path of a history is fixed when the history is made, but the file is opened anew for every entry, from
the working directory of that moment. So an entry goes to the place to which the path leads then
(`record_cases`). A place to which the path leads from some directory is given exactly the entries that are
stored while the path leads to it, in order, and keeps what it held before
(`History.entries_go_where_the_path_leads`): all of them if the path is absolute, but if it is relative and
the working directory changes, they are scattered (`History.entries_scatter`). -/

namespace CommandShell

/-- The place to which what is written under a path goes. -/
def World.filePlace? (w : World) (path : Path) : Option Location :=
  match Files.fileName path.text with
  | .ok name => w.files.filePlace? w.cwd name
  | .error _ => none

/-- A path leads to a place for a file if it names a file and this name leads there from the working
directory. -/
theorem World.filePlace?_eq_some_iff {w : World} {path : Path} {place : Location} :
    w.filePlace? path = some place ↔
      ∃ name, Files.fileName path.text = .ok name ∧ w.files.filePlace? w.cwd name = some place := by
  unfold filePlace?
  cases Files.fileName path.text with
  | ok name => simp
  | error f => simp

/-- An absolute path leads to the same place from everywhere. -/
theorem World.filePlace?_cwd {path : Path} (hrooted : path.IsRooted) (w : World)
    (cwd : WorkingDirectory) : { w with cwd }.filePlace? path = w.filePlace? path := by
  unfold filePlace?
  cases hname : Files.fileName path.text with
  | ok name => exact FileTree.filePlace?_cwd (hrooted.rootOf_name hname) w.files cwd w.cwd
  | error f => rfl

namespace History

open HistoryFormat

variable {path : Path} {w w' : World} {d : WorkingDirectory} {place : Location} {data : List UInt8}

/-! ## Storing an entry -/

/-- **Storing an entry** in a file puts it behind what the place holds to which the path leads, or fails if
the path leads to no such place. Nothing else changes, but for what is reported. -/
theorem record_cases (hhistory : w.history = .file path) (entry : String) :
    (∃ place es, w.filePlace? path = some place ∧
        (record entry).run w = .ok () { w with
          files := w.files.put place (.file (.bytes
            (((w.files.content? place).map Files.contentBytes).getD [] ++ written w.time entry)))
          trace := w.trace ++ es }) ∨
      ∃ f es, w.filePlace? path = none ∧
        (record entry).run w = .error f { w with trace := w.trace ++ es } := by
  have hlog := Shell.run_log .debug .history ("History += " ++ Text.quoted entry) w
  set w₁ := w.emitted (w.reports .debug .history ("History += " ++ Text.quoted entry)) with hw₁
  have hhistory₁ : w₁.history = .file path := hhistory
  unfold record
  rw [Shell.run_bind_ok hlog, Shell.run_bind_ok (EStateM.run_get w₁), hhistory₁]
  -- Appending creates the file where its place is free.
  cases hplace : w.filePlace? path with
  | some place =>
    obtain ⟨name, hname, hleads⟩ := World.filePlace?_eq_some_iff.mp hplace
    have happend : (Files.appendBytes path (written w.time entry)).run w₁ = .ok () _ :=
      Files.run_change_ok hname (FileTree.write_of_filePlace? hleads _)
    refine .inl ⟨place, w.reports .debug .history ("History += " ++ Text.quoted entry)
      ++ [.recorded entry], rfl, ?_⟩
    rw [← List.append_assoc]
    exact Shell.run_bind_ok happend fun _ => Shell.emit (.recorded entry)
  | none =>
    have hfails : ∃ f, (Files.appendBytes path (written w.time entry)).run w₁ = .error f w₁ := by
      obtain ⟨f, hf⟩ | ⟨name, files, hname, hwrite, -⟩ := Files.change_cases path
        (fun t cwd p => t.write cwd p fun old =>
          .bytes ((old.map Files.contentBytes).getD [] ++ written w.time entry)) w₁
      · exact ⟨f, hf⟩
      · have hnone : w.files.filePlace? w.cwd name = none := by
          unfold World.filePlace? at hplace
          rwa [hname] at hplace
        obtain ⟨e, he⟩ := FileTree.write_of_filePlace?_eq_none hnone
          fun old => .bytes ((old.map Files.contentBytes).getD [] ++ written w.time entry)
        exact nomatch he.symm.trans hwrite
    obtain ⟨f, hf⟩ := hfails
    exact .inr ⟨f, _, rfl, Shell.run_bind_error hf _⟩

/-- An entry can be stored exactly if the path leads to a place for a file. -/
theorem exists_run_record_iff (hhistory : w.history = .file path) (entry : String) :
    (∃ w', (record entry).run w = .ok () w') ↔ ∃ place, w.filePlace? path = some place := by
  obtain ⟨place, es, hplace, hrun⟩ | ⟨f, es, hplace, hrun⟩ := record_cases hhistory entry
  · exact iff_of_true ⟨_, hrun⟩ ⟨_, hplace⟩
  · simp [hrun, hplace]

/-- Storing an entry moves nowhere. -/
theorem cwd_after_record (hhistory : w.history = .file path) (entry : String) :
    (w.after (record entry)).cwd = w.cwd := by
  obtain ⟨_, _, -, hrun⟩ | ⟨_, _, -, hrun⟩ := record_cases hhistory entry
  · rw [World.after_of_ok hrun]
  · rw [World.after_of_error hrun]

/-! ## A place that the path leads to -/

/-- A history is kept under a path that leads from the directory `d` to a place, and this holds these bytes
and is ready for more. -/
structure KeptAt (path : Path) (d : WorkingDirectory) (place : Location) (w : World)
    (data : List UInt8) : Prop where
  /-- The history is kept under the path. -/
  history : w.history = .file path
  /-- The path leads from the directory to the place. -/
  leads : { w with cwd := d }.filePlace? path = some place
  /-- The place holds the bytes. -/
  holds : w.files.HoldsAt place data
  /-- The bytes do not end within a line. -/
  ends : EndsLine data
  /-- The present time is one line. -/
  time : '\n' ∉ w.time.toList

namespace KeptAt

/-- What spares the history keeps it at the same place, with the same bytes. -/
theorem of_spares (h : KeptAt path d place w data) (hspares : Spares path w w') :
    KeptAt path d place w' data := by
  obtain ⟨name, hname, hleads⟩ := World.filePlace?_eq_some_iff.mp h.leads
  have hsame := hspares.leads path List.mem_cons_self name hname d .written
  obtain ⟨hleads', hnode⟩ := FileTree.node?_of_resolve hleads hsame
  refine ⟨hspares.history.trans h.history, World.filePlace?_eq_some_iff.mpr ⟨name, hname, hleads'⟩, ?_,
    h.ends, hspares.time h.time⟩
  unfold FileTree.HoldsAt
  rw [hnode]
  exact h.holds

/-- A file that is put somewhere bends no path. -/
theorem leads_put (h : KeptAt path d place w data) {l : Location} (hl : w.files.TakesFile l)
    (content : Content) :
    { w with files := w.files.put l (.file content), cwd := d }.filePlace? path = some place := by
  obtain ⟨name, hname, hleads⟩ := World.filePlace?_eq_some_iff.mp h.leads
  exact World.filePlace?_eq_some_iff.mpr ⟨name, hname, FileTree.filePlace?_put hleads hl content⟩

/-- **An entry that is stored while the path leads to the place** comes behind the others. -/
theorem record_there (h : KeptAt path d place w data) (hthere : w.filePlace? path = some place)
    (entry : String) :
    KeptAt path d place (w.after (record entry)) (data ++ written w.time entry) := by
  obtain ⟨place', es, hplace, hrun⟩ | ⟨f, es, hplace, -⟩ := record_cases h.history entry
  · obtain rfl : place = place' := Option.some.inj (hthere.symm.trans hplace)
    obtain ⟨name, -, hleads⟩ := World.filePlace?_eq_some_iff.mp hthere
    have htakes := FileTree.takesFile_of_filePlace? hleads
    rw [World.after_of_ok hrun, h.holds.contentBytes]
    exact ⟨h.history, h.leads_put htakes _, .put_self htakes.1 _ _, endsLine_written _ _ _, h.time⟩
  · rw [hthere] at hplace
    cases hplace

/-- **An entry that is stored while the path leads elsewhere** does not come to the place. -/
theorem record_elsewhere (h : KeptAt path d place w data) (helse : w.filePlace? path ≠ some place)
    (entry : String) : KeptAt path d place (w.after (record entry)) data := by
  obtain ⟨place', es, hplace, hrun⟩ | ⟨f, es, -, hrun⟩ := record_cases h.history entry
  · have hne : place' ≠ place := by
      rintro rfl
      exact helse hplace
    obtain ⟨name, -, hleads⟩ := World.filePlace?_eq_some_iff.mp hplace
    have htakes := FileTree.takesFile_of_filePlace? hleads
    rw [World.after_of_ok hrun]
    exact ⟨h.history, h.leads_put htakes _, h.holds.put_of_ne htakes.1 hne _, h.ends, h.time⟩
  · rw [World.after_of_error hrun]
    exact ⟨h.history, h.leads, h.holds, h.ends, h.time⟩

/-- Either way the place has the entry behind the others exactly if the path led there. -/
theorem after_record (h : KeptAt path d place w data) (entry : String) :
    ∃ data', KeptAt path d place (w.after (record entry)) data' ∧
      HistoryFormat.entries data' = HistoryFormat.entries data ++
        if w.filePlace? path = some place then [entry] else [] := by
  by_cases hthere : w.filePlace? path = some place
  · refine ⟨_, h.record_there hthere entry, ?_⟩
    rw [if_pos hthere, entries_append_written h.ends h.time]
  · refine ⟨_, h.record_elsewhere hthere entry, ?_⟩
    rw [if_neg hthere, List.append_nil]

/-- While the path leads to the place, the entries of the history are those that are kept there. -/
theorem run_historyEntries (h : KeptAt path d place w data) (hthere : w.filePlace? path = some place) :
    historyEntries.run w = .ok (HistoryFormat.entries data) w := by
  obtain ⟨name, hname, hleads⟩ := World.filePlace?_eq_some_iff.mp hthere
  have hholds : Holds w.files w.cwd name data := by
    obtain ⟨content, hresolve, hnode, -⟩ | ⟨_, _, hresolve, -, hnode⟩ :=
      FileTree.filePlace?_cases hleads
    · obtain hbytes | ⟨hnone, -⟩ := h.holds
      · rw [hnode] at hbytes
        cases hbytes
        exact .bytes (FileTree.read_eq_ok_iff.mpr (FileTree.resolve_followed hresolve (by simp)))
      · rw [hnode] at hnone
        cases hnone
    · obtain hbytes | ⟨-, rfl⟩ := h.holds
      · rw [hnode] at hbytes
        cases hbytes
      · exact .missing hresolve
  exact hholds.run_historyEntries h.history hname

end KeptAt

/-! ## Many entries -/

/-- Something that happens in the world, and an entry that is stored after it. -/
structure Deposit where
  /-- What happens. -/
  meanwhile : World → World
  /-- The entry. -/
  entry : String

/-- The world after some entries were stored. Faults are caught between them. -/
def afterDeposits : List Deposit → World → World
  | [], w => w
  | d :: ds, w => afterDeposits ds ((d.meanwhile w).after (record d.entry))

/-- The worlds that the entries are stored in, each with its entry. -/
def stored : List Deposit → World → List (World × String)
  | [], _ => []
  | d :: ds, w =>
    (d.meanwhile w, d.entry) :: stored ds ((d.meanwhile w).after (record d.entry))

/-- An entry is stored, or tried to be, for every deposit, in order. -/
theorem map_snd_stored (ds : List Deposit) (w : World) :
    (stored ds w).map Prod.snd = ds.map Deposit.entry := by
  induction ds generalizing w with
  | nil => rfl
  | cons d ds ih => simp [stored, ih]

/-- The entries that are stored while the path leads to a place. -/
def storedAt (path : Path) (place : Location) (ds : List Deposit) (w : World) : List String :=
  ((stored ds w).filter fun s => s.1.filePlace? path = some place).map Prod.snd

/-- **A place receives the entries that are stored while the path leads to it**, in order. -/
theorem KeptAt.afterDeposits (h : KeptAt path d place w data) {ds : List Deposit}
    (hds : ∀ d ∈ ds, ∀ u, Spares path u (d.meanwhile u)) :
    ∃ data', KeptAt path d place (History.afterDeposits ds w) data' ∧
      HistoryFormat.entries data' = HistoryFormat.entries data ++ storedAt path place ds w := by
  induction ds generalizing w data with
  | nil => exact ⟨data, h, by simp [storedAt, stored]⟩
  | cons d ds ih =>
    have hrest : ∀ d ∈ ds, ∀ u, Spares path u (d.meanwhile u) :=
      fun d hd => hds d (List.mem_cons_of_mem _ hd)
    obtain ⟨data₁, hkept₁, hentries₁⟩ :=
      (h.of_spares (hds d List.mem_cons_self w)).after_record d.entry
    obtain ⟨data', hkept, hentries⟩ := ih hkept₁ hrest
    refine ⟨data', hkept, ?_⟩
    rw [hentries, hentries₁, List.append_assoc]
    by_cases hthere : (d.meanwhile w).filePlace? path = some place
    · simp [storedAt, stored, hthere]
    · simp [storedAt, stored, hthere]

/-- Whenever an entry is stored, the history is kept as it is from the start. -/
theorem KeptAt.at_stored (h : KeptAt path d place w data) {ds : List Deposit}
    (hds : ∀ d ∈ ds, ∀ u, Spares path u (d.meanwhile u)) :
    ∀ s ∈ stored ds w, ∃ data', KeptAt path d place s.1 data' := by
  induction ds generalizing w data with
  | nil => simp [stored]
  | cons d ds ih =>
    have hspared := h.of_spares (hds d List.mem_cons_self w)
    obtain ⟨data', hkept, -⟩ := hspared.after_record d.entry
    exact List.forall_mem_cons.mpr
      ⟨⟨data, hspared⟩, ih hkept fun d hd => hds d (List.mem_cons_of_mem _ hd)⟩

/-- An absolute path leads to its place from every directory. -/
theorem KeptAt.there_of_isRooted (h : KeptAt path d place w data) (hrooted : path.IsRooted) :
    w.filePlace? path = some place :=
  (World.filePlace?_cwd hrooted _ _).symm.trans h.leads

/-! ## The path of a history -/

/-- **Entries go where the path leads.** A history is opened under a path, which leads from some directory
`d`, such as the one in which it is opened, to a file that does not end within a line, or to none. Entries
are stored, and between them the working directory may change, and anything else that does not touch the
file. Then this file has, behind its entries, those that were stored while the path led to it: all of them
if and only if the path led there each time. What it has is what the history tells if the path leads there
at the end. An entry is stored if and only if the path leads to a place for a file. An absolute path leads
to the same place at all times. -/
theorem entries_go_where_the_path_leads {t : RawText} {w w₁ : World} {backed : History}
    {d : WorkingDirectory} {place : Location} {data : List UInt8}
    (hopen : (openFile (Path.ofText t)).run w = .ok backed w₁)
    (hplace : { w₁ with cwd := d }.filePlace? (Path.ofText t) = some place)
    (hholds : w₁.files.HoldsAt place data) (hends : EndsLine data) (htime : '\n' ∉ w₁.time.toList)
    (ds : List Deposit) (hds : ∀ d ∈ ds, ∀ u, Spares (Path.ofText t) u (d.meanwhile u)) :
    let path := Path.ofText t
    let start := { w₁ with history := backed }
    let last := afterDeposits ds start
    ∃ data', last.files.HoldsAt place data' ∧
      HistoryFormat.entries data' = HistoryFormat.entries data ++ storedAt path place ds start ∧
      (HistoryFormat.entries data' = HistoryFormat.entries data ++ ds.map Deposit.entry ↔
        ∀ s ∈ stored ds start, s.1.filePlace? path = some place) ∧
      (last.filePlace? path = some place →
        historyEntries.run last = .ok (HistoryFormat.entries data') last) ∧
      (∀ s ∈ stored ds start, (∃ u, (record s.2).run s.1 = .ok () u) ↔
        ∃ place', s.1.filePlace? path = some place') ∧
      (path.isAbsolute = true →
        (∀ s ∈ stored ds start, s.1.filePlace? path = some place) ∧
          last.filePlace? path = some place) := by
  intro path start last
  have hbacked : start.history = .file path := by
    obtain ⟨_, _, -, hpure⟩ := Shell.run_bind_eq_ok_iff.mp hopen
    cases hpure
    rfl
  have hstart : KeptAt path d place start data := ⟨hbacked, hplace, hholds, hends, htime⟩
  obtain ⟨data', hlast, hentries⟩ := hstart.afterDeposits hds
  have hstored := hstart.at_stored hds
  refine ⟨data', hlast.holds, hentries, ?_, hlast.run_historyEntries, fun s hs => ?_,
    fun habsolute => ?_⟩
  · -- No entry is left out exactly if the path leads to the place each time.
    rw [hentries, List.append_cancel_left_eq, ← map_snd_stored ds start, storedAt]
    constructor
    · intro hall
      have hlength := congrArg List.length hall
      rw [List.length_map, List.length_map] at hlength
      simpa using List.length_filter_eq_length_iff.mp hlength
    · intro hall
      rw [List.filter_eq_self.mpr (by simpa using hall)]
  · obtain ⟨_, hkept⟩ := hstored s hs
    exact exists_run_record_iff hkept.history s.2
  · have hrooted := Path.isRooted_ofText habsolute
    refine ⟨fun s hs => ?_, hlast.there_of_isRooted hrooted⟩
    obtain ⟨_, hkept⟩ := hstored s hs
    exact hkept.there_of_isRooted hrooted

/-! ## A relative path -/

/-- A world with two directories, in one of which the shell is, and with a history in a file of the working
directory. -/
def scatteredWorld : World :=
  { (default : World) with
    time := "now"
    files := ⟨⟨[(["work"], .directory), (["other"], .directory)]⟩⟩
    cwd := .ofLocation ["work"]
    history := .file (Path.ofText "log") }

/-- An entry is stored, the other directory is entered, and another entry is stored. -/
def scatteredDeposits : List Deposit :=
  [⟨id, "pwd"⟩, ⟨fun w => { w with cwd := .ofLocation ["other"] }, "cd ../other"⟩]

/-- Entering the other directory touches no history. -/
theorem spares_scattered : ∀ d ∈ scatteredDeposits, ∀ u, Spares (Path.ofText "log") u (d.meanwhile u) := by
  intro d hd u
  simp only [scatteredDeposits, List.mem_cons, List.not_mem_nil, or_false] at hd
  rcases hd with rfl | rfl
  · exact ⟨rfl, id, fun _ _ _ _ _ _ => rfl⟩
  · exact ⟨rfl, id, fun _ _ _ _ _ _ => rfl⟩

/-- The history can be opened: its directory is the working directory, which is there. -/
theorem run_openFile_scattered :
    (openFile (Path.ofText "log")).run scatteredWorld
      = .ok (.file (Path.ofText "log")) scatteredWorld := by
  have hleads (last : LastName) : FileTree.Leads scatteredWorld.files last FileTree.maxLinks ["work"] ["."]
      (.found ["work"] .directory) := .skip (.inr rfl) .here
  have hresolve (last : LastName) : scatteredWorld.files.resolve scatteredWorld.cwd last "."
      = .ok (.found ["work"] .directory) := FileTree.walk_of_leads (hleads last)
  have hmake : scatteredWorld.files.makeDirectory scatteredWorld.cwd "." = .error .occupied := by
    rw [FileTree.makeDirectory, FileTree.makeNode, hresolve]
  have hfind : scatteredWorld.files.find scatteredWorld.cwd "." = .ok .directory := by
    rw [FileTree.find, hresolve]
  have hthere : (Files.makeDirectory (Path.ofText "log").parent).run scatteredWorld
      = .ok () scatteredWorld := Files.run_makeDirectory_of_occupied rfl hmake hfind
  have hall : (Files.makeDirectories (Path.ofText "log").parent).run scatteredWorld
      = .ok () scatteredWorld := by
    unfold Files.makeDirectories
    exact Shell.run_catch_ok hthere _
  exact Shell.run_bind_ok hall _

/-- In each of the directories the path leads to a free name. -/
theorem keptAt_scattered {c : String} (hc : c ∈ ["work", "other"]) :
    KeptAt (Path.ofText "log") (.ofLocation [c]) [c, "log"] scatteredWorld [] := by
  have hname : FileTree.IsName "log" := ⟨by decide, by decide, by decide⟩
  have hnode : scatteredWorld.files.node? ([c] ++ ["log"]) = none := by
    simp only [List.mem_cons, List.not_mem_nil, or_false] at hc
    rcases hc with rfl | rfl
    · rfl
    · rfl
  have hleads : FileTree.Leads scatteredWorld.files .written FileTree.maxLinks [c] ["log"]
      (.free [c] "log") := .free hname hnode
  have hresolve : scatteredWorld.files.resolve (.ofLocation [c]) .written "log"
      = .ok (.free [c] "log") := FileTree.walk_of_leads hleads
  have hplace : scatteredWorld.files.filePlace? (.ofLocation [c]) "log" = some [c, "log"] := by
    unfold FileTree.filePlace?
    rw [hresolve]
    rfl
  exact ⟨rfl, World.filePlace?_eq_some_iff.mpr ⟨"log", rfl, hplace⟩, .inr ⟨hnode, rfl⟩, .inl rfl,
    by decide⟩

/-- The second entry is stored where the path leads to the other directory. -/
theorem keptAt_second :
    KeptAt (Path.ofText "log") (.ofLocation ["other"]) ["other", "log"]
      { scatteredWorld.after (record "pwd") with cwd := .ofLocation ["other"] } [] := by
  have hwork : scatteredWorld.filePlace? (Path.ofText "log") = some ["work", "log"] :=
    (keptAt_scattered (by simp)).leads
  have hother := keptAt_scattered (c := "other") (by simp)
  exact (hother.record_elsewhere (by simp [hwork]) "pwd").of_spares
    ⟨rfl, id, fun _ _ _ _ _ _ => rfl⟩

/-- Only the first of the entries meets the place in the directory that the shell was in at first. -/
theorem stored_scattered : storedAt (Path.ofText "log") ["work", "log"] scatteredDeposits scatteredWorld
    = ["pwd"] := by
  have hfirst : scatteredWorld.filePlace? (Path.ofText "log") = some ["work", "log"] :=
    (keptAt_scattered (by simp)).leads
  have hsecond : World.filePlace? { scatteredWorld.after (record "pwd") with cwd := .ofLocation ["other"] }
      (Path.ofText "log") = some ["other", "log"] := keptAt_second.leads
  simp [storedAt, stored, scatteredDeposits, hfirst, hsecond]

/-- Under a relative path the first directory is given the first entry only. -/
theorem entries_go_where_the_path_leads_scattered :
    ∃ data', (afterDeposits scatteredDeposits scatteredWorld).files.HoldsAt ["work", "log"] data' ∧
      HistoryFormat.entries data' = ["pwd"] := by
  have hkept := keptAt_scattered (c := "work") (by simp)
  obtain ⟨data', hholds, hentries, -⟩ := entries_go_where_the_path_leads run_openFile_scattered
    hkept.leads hkept.holds hkept.ends hkept.time scatteredDeposits spares_scattered
  exact ⟨data', hholds, hentries.trans (congrArg _ stored_scattered)⟩

/-- **A history under a relative path is scattered** by a change of the directory. Both entries are stored,
and nobody else touches the file, but at the end the history tells only the second one. -/
theorem entries_scatter :
    let last := afterDeposits scatteredDeposits scatteredWorld
    (∀ s ∈ stored scatteredDeposits scatteredWorld, ∃ u, (record s.2).run s.1 = .ok () u) ∧
      scatteredWorld.outcome historyEntries = .ok [] ∧
      last.outcome historyEntries = .ok ["cd ../other"] ∧
      last.outcome historyEntries ≠ .ok (scatteredDeposits.map Deposit.entry) := by
  intro last
  have hstart := keptAt_scattered (c := "work") (by simp)
  have hsecond := keptAt_second
  have hstored : ∀ s ∈ stored scatteredDeposits scatteredWorld,
      ∃ u, (record s.2).run s.1 = .ok () u := by
    refine List.forall_mem_cons.mpr ⟨?_, List.forall_mem_cons.mpr ⟨?_, by simp [stored]⟩⟩
    · exact (exists_run_record_iff rfl "pwd").mpr ⟨_, hstart.leads⟩
    · exact (exists_run_record_iff hsecond.history "cd ../other").mpr ⟨_, hsecond.leads⟩
  have hlast : last.outcome historyEntries = .ok ["cd ../other"] := by
    have hkept := hsecond.record_there hsecond.leads "cd ../other"
    have hcwd := cwd_after_record hsecond.history "cd ../other"
    have hleads : last.filePlace? (Path.ofText "log") = some ["other", "log"] := by
      have hsame : { last with cwd := .ofLocation ["other"] } = last := by
        rw [← show last.cwd = .ofLocation ["other"] from hcwd]
      rw [← hsame]
      exact hkept.leads
    exact (World.outcome_of_ok (hkept.run_historyEntries hleads)).trans
      (congrArg Except.ok (entries_append_written (.inl rfl) hsecond.time "cd ../other"))
  refine ⟨hstored, World.outcome_of_ok (hstart.run_historyEntries hstart.leads), hlast, ?_⟩
  rw [hlast]
  simp [scatteredDeposits]

end History

end CommandShell
