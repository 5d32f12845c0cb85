import CommandShell.Builtin
import CommandShell.Proofs.Files.Locations
import CommandShell.Proofs.Table

/-! # Returning to a directory

The command that changes the directory remembers the text of the directory that it leaves, and goes back there
as to any other target. In a connected tree a call either moves to where its target leads and remembers the
directory just before, or it changes neither of the two (`Builtin.changes_call`), so after any calls the working
directory and what is remembered are directories of the tree (`World.StandsInTree.afterChanges`). Going back
exchanges the two unless the text of the remembered directory is too long for a path, as that of a directory
which was reached step by step may be; going back twice restores them unless this happens on the way
(`Builtin.back_and_forth_iff`). -/

namespace CommandShell

open FileTree (pathLimit)

/-! ## Targets within reach -/

namespace Builtin

variable {w : World} {target : String} {path : Path}

/-- The path to a target: home for the empty one, and a leading `~` is replaced. -/
def targetPath (target : String) : Shell Path := do
  let home := Path.ofString (← get).home
  if target = "" then pure home else Files.expandHome (Path.ofString target)

/-- The path to a target is found without a change, and whatever reached the outside. -/
theorem targetPath_cases (target : String) (w : World) :
    (∃ f, ∀ es, (targetPath target).run (w.emitted es) = .error f (w.emitted es)) ∨
      ∃ p, ∀ es, (targetPath target).run (w.emitted es) = .ok p (w.emitted es) := by
  unfold targetPath
  simp only [Shell.run_bind_ok (EStateM.run_get _)]
  by_cases hempty : target = ""
  · simp only [if_pos hempty]
    exact .inr ⟨Path.ofString w.home, fun _ => rfl⟩
  · simp only [if_neg hempty]
    exact (Files.expandHome_cases (Path.ofString target) w).imp (fun ⟨f, hf⟩ => ⟨f, fun es => hf _ rfl rfl⟩)
      fun ⟨p, hp⟩ => ⟨p, fun es => hp _ rfl rfl⟩

/-- A target that is not empty and does not start with a tilde is itself the path. -/
theorem run_targetPath_of_plain (hne : target ≠ "") (huser : (Path.ofString target).user? = none)
    (w : World) : (targetPath target).run w = .ok (Path.ofString target) w := by
  unfold targetPath Files.expandHome
  rw [Shell.run_bind_ok (EStateM.run_get w), if_neg hne, huser]
  rfl

/-- The text of a location is the target of the path along its names. -/
theorem run_targetPath_locationText {l : Location} (hnames : ∀ n ∈ l, FileTree.IsEntryName n) (w : World) :
    (targetPath (Files.locationText l)).run w = .ok (Path.ofNames l) w := by
  have hpath := Path.ofString_locationText hnames
  have hne : Files.locationText l ≠ "" := by
    intro h
    rw [h] at hpath
    have hroot : (Path.ofString "").root = "/" := congrArg Path.root hpath
    exact absurd hroot (by decide)
  have huser : (Path.ofString (Files.locationText l)).user? = none := by
    rw [hpath]
    rfl
  rw [run_targetPath_of_plain hne huser, hpath]

/-- What has reached the outside does not bear on the path to a target. -/
theorem run_targetPath_emitted (es : List Event) :
    (targetPath target).run (w.emitted es) = .ok path (w.emitted es) ↔
      (targetPath target).run w = .ok path w := by
  obtain ⟨f, hf⟩ | ⟨p, hp⟩ := targetPath_cases target w
  · have hw := hf []
    rw [World.emitted_nil] at hw
    rw [hf, hw]
    exact iff_of_false (fun h => by cases h) fun h => by cases h
  · have hw := hp []
    rw [World.emitted_nil] at hw
    rw [hp, hw]
    constructor
    · intro h
      cases h
      rfl
    · intro h
      cases h
      rfl

end Builtin

namespace World

variable {w : World} {origin : Nat} {arguments : List String} {target here : String} {l : Location}

/-- The text of the working directory, unless it is lost. -/
def here? (w : World) : Option String := w.cwd.location?.map Files.locationText

/-- The target that the arguments of a call name: with `-` what is remembered, and without any the empty
one. -/
def target? (w : World) (origin : Nat) (arguments : List String) : Option String :=
  if arguments.head? = some "-" then w.previous.get? origin else some (arguments.head?.getD "")

/-- A target is **within reach** if the working directory has a text and the path to the target leads to a
directory. -/
structure WithinReach (w : World) (target here : String) (l : Location) : Prop where
  /-- The working directory has a text. -/
  here : w.here? = some here
  /-- The path leads to a directory. -/
  leads : ∃ path, (Builtin.targetPath target).run w = .ok path w ∧ w.LeadsTo path l

/-- The world after a move to a directory: where it came from is remembered. -/
def moved (w : World) (origin : Nat) (here : String) (l : Location) : World :=
  { w with cwd := .ofLocation l, previous := w.previous.put origin here }

/-- The working directory has a text exactly if it is not lost, and then the text of its place. -/
theorem here?_eq_some_iff :
    w.here? = some here ↔ w.cwd.lost = 0 ∧ Files.locationText w.cwd.place = here := by
  unfold here? WorkingDirectory.location?
  by_cases hlost : w.cwd.lost = 0
  · simp [hlost]
  · simp [hlost]

/-- Only what is remembered can be missing. -/
theorem target?_eq_none_iff :
    w.target? origin arguments = none ↔ arguments.head? = some "-" ∧ w.previous.get? origin = none := by
  unfold target?
  by_cases hdash : arguments.head? = some "-"
  · simp [hdash]
  · simp [hdash]

/-- After a move the working directory has the text of the directory moved to. -/
@[simp] theorem here?_moved (w : World) (origin : Nat) (here : String) (l : Location) :
    (w.moved origin here l).here? = some (Files.locationText l) := rfl

/-- What has reached the outside does not bear on what is within reach. -/
theorem withinReach_emitted (es : List Event) :
    (w.emitted es).WithinReach target here l ↔ w.WithinReach target here l := by
  constructor
  · rintro ⟨hhere, path, hpath, hleads⟩
    exact ⟨hhere, path, (Builtin.run_targetPath_emitted es).mp hpath, hleads⟩
  · rintro ⟨hhere, path, hpath, hleads⟩
    exact ⟨hhere, path, (Builtin.run_targetPath_emitted es).mpr hpath, hleads⟩

/-- A relative target is within reach if its components lead to a directory. -/
theorem withinReach_of_leads (hhere : w.here? = some here) (hne : target ≠ "")
    (huser : (Path.ofString target).user? = none)
    (hname : Files.fileName (Path.ofString target).text = .ok target)
    (hfits : ¬pathLimit ≤ target.utf8ByteSize) (hroot : Path.rootOf target = "")
    (hleads : w.files.Leads .followed FileTree.maxLinks w.cwd.place (Path.components target)
      (.found l .directory)) : w.WithinReach target here l := by
  refine ⟨hhere, _, Builtin.run_targetPath_of_plain hne huser w, target, hname, ?_⟩
  rw [FileTree.resolve, if_neg hne, if_neg hfits, if_pos hroot,
    FileTree.walkOut_of_there (here?_eq_some_iff.mp hhere).1, FileTree.walk_of_leads hleads]

/-! ## Worlds whose directories are in the tree -/

/-- A world **stands in its tree** if the tree is connected, and the working directory and those that are
remembered are directories of the tree. A lost working directory is none. -/
structure StandsInTree (w : World) : Prop where
  /-- The tree is connected. -/
  tree : w.files.IsConnected
  /-- The working directory is in the tree. -/
  here : ∀ l, w.cwd.location? = some l → w.files.node? l = some .directory
  /-- What is remembered is the text of a directory of the tree. -/
  remembered : ∀ origin text, w.previous.get? origin = some text →
    ∃ l, w.files.node? l = some .directory ∧ text = Files.locationText l

namespace StandsInTree

variable (hw : w.StandsInTree)

include hw

/-- Events leave a world standing in its tree. -/
theorem emitted (es : List Event) : (w.emitted es).StandsInTree := ⟨hw.tree, hw.here, hw.remembered⟩

/-- A working directory that has a text is a directory of the tree. -/
theorem of_here? (h : w.here? = some here) :
    w.cwd.lost = 0 ∧ w.files.node? w.cwd.place = some .directory := by
  have hlost := (here?_eq_some_iff.mp h).1
  exact ⟨hlost, hw.here _ (by rw [WorkingDirectory.location?, if_pos hlost])⟩

/-- The directory of a move is in the tree. -/
theorem node?_of_withinReach (h : w.WithinReach target here l) : w.files.node? l = some .directory := by
  obtain ⟨hhere, path, -, name, -, hresolve⟩ := h
  obtain ⟨hlost, hplace⟩ := hw.of_here? hhere
  obtain ⟨l', heq, hl', -⟩ := FileTree.node?_of_directory hw.tree hlost hplace
    (FileTree.directory_of_resolve hresolve (.inl ⟨l, rfl, rfl⟩))
  cases heq
  exact hl'

/-- A move to a target within reach keeps a world standing in its tree: both the new directory and the
remembered one belong to it. -/
theorem moved (h : w.WithinReach target here l) (origin : Nat) : (w.moved origin here l).StandsInTree where
  tree := hw.tree
  here l' hl' := by
    cases hl'
    exact hw.node?_of_withinReach h
  remembered origin' text htext := by
    have hput : (w.previous.put origin here).get? origin' = some text := htext
    rw [Table.get?_put] at hput
    by_cases horigin : origin = origin'
    · rw [if_pos horigin] at hput
      cases hput
      exact ⟨_, (hw.of_here? h.here).2, (here?_eq_some_iff.mp h.here).2.symm⟩
    · rw [if_neg horigin] at hput
      exact hw.remembered _ _ hput

/-- **The text of a directory of the tree is within reach** unless it is too long. -/
theorem withinReach_locationText (hl : w.files.node? l = some .directory) (hhere : w.here? = some here)
    (hfits : ¬pathLimit ≤ (Files.locationText l).utf8ByteSize) :
    w.WithinReach (Files.locationText l) here l := by
  obtain ⟨hlost, hplace⟩ := hw.of_here? hhere
  have hdirectory := FileTree.directory_locationText hw.tree hl w.cwd
  rw [if_neg hfits] at hdirectory
  obtain ⟨l', heq, -, hresolve⟩ := FileTree.node?_of_directory hw.tree hlost hplace hdirectory
  cases heq
  exact ⟨hhere, _, Builtin.run_targetPath_locationText (fun n hn => (hw.tree.names hl n hn).1) w, _,
    hw.tree.fileName_locationText hl, hresolve⟩

end StandsInTree

end World

/-! ## One call -/

namespace Builtin

variable {w : World} {origin : Nat} {arguments : List String} {target here : String} {l : Location}

/-- What follows on the path to a target. -/
theorem go_eq (origin : Nat) (target : String) :
    changeDirectory.go origin target = (targetPath target >>= fun path => do
      let left ← Files.currentDirectory
      Files.changeDirectory path
      modify fun w => { w with previous := w.previous.put origin left }) := by
  unfold changeDirectory.go targetPath
  rw [bind_assoc]
  congr 1
  funext w
  split
  · rfl
  · rfl

/-- A working directory that has a text is told by this text, without a change. -/
theorem run_currentDirectory_of_here? (h : w.here? = some here) :
    Files.currentDirectory.run w = .ok here w := by
  unfold World.here? at h
  unfold Files.currentDirectory
  rw [Shell.run_bind_ok (EStateM.run_get w)]
  cases hplace : w.cwd.location? with
  | none =>
    rw [hplace] at h
    cases h
  | some place =>
    rw [hplace] at h
    cases h
    rfl

/-- From a lost directory there is no move. -/
theorem run_currentDirectory_of_lost (h : w.here? = none) :
    Files.currentDirectory.run w = .error (.system .noEntry []) w := by
  unfold Files.currentDirectory
  rw [Shell.run_bind_ok (EStateM.run_get w), Option.map_eq_none_iff.mp h]
  rfl

/-- **A target within reach** is moved to. -/
theorem run_go_of_withinReach (h : w.WithinReach target here l) (origin : Nat) :
    (changeDirectory.go origin target).run w = .ok () (w.moved origin here l) := by
  obtain ⟨hhere, path, hpath, name, hname, hresolve⟩ := h
  have hquery := Files.run_query_ok hname
    (FileTree.directory_of_resolve hresolve (.inl ⟨l, rfl, rfl⟩))
  have hchange : (Files.changeDirectory path).run w = .ok () { w with cwd := .ofLocation l } :=
    Shell.run_bind_ok hquery _
  rw [go_eq, Shell.run_bind_ok hpath, Shell.run_bind_ok (run_currentDirectory_of_here? hhere),
    Shell.run_bind_ok hchange]
  rfl

/-- **Any other target** changes nothing. -/
theorem exists_withinReach_or_run_go (hw : w.StandsInTree) (origin : Nat) (target : String) :
    (∃ here l, w.WithinReach target here l) ∨
      ∃ f, (changeDirectory.go origin target).run w = .error f w := by
  rw [go_eq]
  obtain ⟨f, hf⟩ | ⟨path, hpath⟩ := targetPath_cases target w
  · have hrun := hf []
    rw [World.emitted_nil] at hrun
    exact .inr ⟨f, Shell.run_bind_error hrun _⟩
  · have hrun := hpath []
    rw [World.emitted_nil] at hrun
    rw [Shell.run_bind_ok hrun]
    cases hhere : w.here? with
    | none => exact .inr ⟨_, Shell.run_bind_error (run_currentDirectory_of_lost hhere) _⟩
    | some here =>
      rw [Shell.run_bind_ok (run_currentDirectory_of_here? hhere)]
      obtain ⟨f, hquery⟩ | ⟨name, e, hname, hdirectory, -⟩ :=
        Files.query_cases path FileTree.directory w
      · exact .inr ⟨f, Shell.run_bind_error (Shell.run_bind_error hquery _) _⟩
      · -- The path does not lead to a lost directory, since the working directory is in the tree.
        obtain ⟨hlost, hplace⟩ := hw.of_here? hhere
        obtain ⟨l, -, -, hresolve⟩ := FileTree.node?_of_directory hw.tree hlost hplace hdirectory
        exact .inl ⟨here, l, hhere, path, hrun, name, hname, hresolve⟩

/-- **A directory whose text is too long** is not moved to by its text. -/
theorem run_go_of_long (hw : w.StandsInTree) (hl : w.files.node? l = some .directory)
    (hhere : w.here? = some here) (hlong : pathLimit ≤ (Files.locationText l).utf8ByteSize)
    (origin : Nat) : (changeDirectory.go origin (Files.locationText l)).run w
      = .error (.system .nameTooLong [RawText.ofString (Files.locationText l)]) w := by
  have hdirectory := FileTree.directory_locationText hw.tree hl w.cwd
  rw [if_pos hlong] at hdirectory
  have hchange : (Files.changeDirectory (Path.ofNames l)).run w
      = .error (.system .nameTooLong [(Path.ofNames l).text]) w :=
    Shell.run_bind_error (Files.run_query_error (hw.tree.fileName_locationText hl) hdirectory) _
  rw [go_eq, Shell.run_bind_ok (run_targetPath_locationText (fun n hn => (hw.tree.names hl n hn).1) w),
    Shell.run_bind_ok (run_currentDirectory_of_here? hhere), Shell.run_bind_error hchange,
    Path.text_ofNames]

/-- What a call with a target says before it moves: `-` tells where to. -/
def announced (arguments : List String) (target : String) : List Event :=
  if arguments.head? = some "-" then [.out (target ++ "\n")] else []

/-- A call without a target to go back to only says so. -/
theorem run_call_nowhere (hdash : arguments.head? = some "-") (h : w.previous.get? origin = none) :
    (Builtin.cd.call origin arguments).run w
      = .ok .null (w.emitted [.out ("cd: no previous directory" ++ "\n")]) := by
  have hchange : (changeDirectory origin arguments).run w
      = .ok () (w.emitted [.out ("cd: no previous directory" ++ "\n")]) := by
    unfold changeDirectory
    rw [Shell.run_bind_ok (EStateM.run_get w), hdash, h]
    rfl
  exact Shell.run_bind_ok hchange _

/-- A call with a target goes there. -/
theorem run_changeDirectory (h : w.target? origin arguments = some target) :
    (changeDirectory origin arguments).run w
      = (changeDirectory.go origin target).run (w.emitted (announced arguments target)) := by
  unfold World.target? at h
  unfold changeDirectory announced
  rw [Shell.run_bind_ok (EStateM.run_get w)]
  by_cases hdash : arguments.head? = some "-"
  · rw [if_pos hdash] at h
    simp only [hdash, h, if_pos]
    exact Shell.run_bind_ok (Shell.run_printLine target w) _
  · rw [if_neg hdash] at h
    cases h
    rw [if_neg hdash, World.emitted_nil]
    dsimp only
    split
    · rename_i hhead _
      exact absurd hhead hdash
    · rename_i hhead _
      exact absurd hhead hdash
    · rfl

/-- A call whose target is within reach succeeds: it moves there, remembers where it came from, and prints
what a return announces. -/
theorem run_call_of_withinReach (h : w.target? origin arguments = some target)
    (hreach : w.WithinReach target here l) :
    (Builtin.cd.call origin arguments).run w
      = .ok .null ((w.moved origin here l).emitted (announced arguments target)) := by
  have hgo := run_go_of_withinReach ((World.withinReach_emitted (announced arguments target)).mpr hreach)
    origin
  exact Shell.run_bind_ok ((run_changeDirectory h).trans hgo) _

/-- A call that names a target leads there. -/
theorem after_call_of_withinReach (hdash : target ≠ "-") (hreach : w.WithinReach target here l)
    (origin : Nat) : w.after (Builtin.cd.call origin [target]) = w.moved origin here l := by
  have hhead : ¬[target].head? = some "-" := fun h => hdash (Option.some.inj h)
  have htarget : w.target? origin [target] = some target := if_neg hhead
  rw [World.after_of_ok (run_call_of_withinReach htarget hreach), announced, if_neg hhead,
    World.emitted_nil]

/-- How a call ends: it has nowhere to go back to, it moves, or it stays where it is with a fault. -/
inductive Changes (origin : Nat) (arguments : List String) (w : World) :
    EStateM.Result Fault World Json → Prop
  | nowhere (hdash : arguments.head? = some "-") (h : w.previous.get? origin = none) :
      Changes origin arguments w (.ok .null (w.emitted [.out ("cd: no previous directory" ++ "\n")]))
  | moves {target here : String} {l : Location} (h : w.target? origin arguments = some target)
      (hreach : w.WithinReach target here l) :
      Changes origin arguments w
        (.ok .null ((w.moved origin here l).emitted (announced arguments target)))
  | stays {target : String} {f : Fault} (h : w.target? origin arguments = some target)
      (hreach : ∀ here l, ¬w.WithinReach target here l) :
      Changes origin arguments w (.error f (w.emitted (announced arguments target)))

/-- **Every call** ends in one of these ways. -/
theorem changes_call (hw : w.StandsInTree) (origin : Nat) (arguments : List String) :
    Changes origin arguments w ((Builtin.cd.call origin arguments).run w) := by
  cases htarget : w.target? origin arguments with
  | none =>
    obtain ⟨hdash, hnone⟩ := World.target?_eq_none_iff.mp htarget
    rw [run_call_nowhere hdash hnone]
    exact .nowhere hdash hnone
  | some target =>
    by_cases hreach : ∃ here l, w.WithinReach target here l
    · obtain ⟨here, l, hreach⟩ := hreach
      rw [run_call_of_withinReach htarget hreach]
      exact .moves htarget hreach
    · have hstays := run_changeDirectory htarget
      obtain ⟨here, l, hl⟩ | ⟨f, hf⟩ :=
        exists_withinReach_or_run_go (hw.emitted (announced arguments target)) origin target
      · exact absurd ⟨here, l, (World.withinReach_emitted _).mp hl⟩ hreach
      · have hcall : (Builtin.cd.call origin arguments).run w
            = .error f (w.emitted (announced arguments target)) :=
          Shell.run_bind_error (hstays.trans hf) _
        rw [hcall]
        exact .stays htarget fun here l hl => hreach ⟨here, l, hl⟩

/-- A call that ends with a fault changes neither directory. -/
theorem Changes.of_error {f : Fault} {w' : World} (h : Changes origin arguments w (.error f w')) :
    ∃ es, w' = w.emitted es := by
  cases h with
  | stays _ _ => exact ⟨_, rfl⟩

/-- A call that has a target and does not end with a fault moves there. -/
theorem Changes.of_ok {x : Json} {w' : World} (h : Changes origin arguments w (.ok x w'))
    (htarget : w.target? origin arguments = some target) :
    ∃ here l es, w.WithinReach target here l ∧ w' = (w.moved origin here l).emitted es := by
  cases h with
  | nowhere hdash hnone =>
    rw [World.target?_eq_none_iff.mpr ⟨hdash, hnone⟩] at htarget
    cases htarget
  | moves h hreach =>
    cases h.symm.trans htarget
    exact ⟨_, _, _, hreach, rfl⟩

end Builtin

/-! ## Any calls -/

namespace World

variable {w : World}

/-- The world after calls of the command. A call that fails is followed by the next one. -/
def afterChanges (w : World) (calls : List (Nat × List String)) : World :=
  calls.foldl (fun w call => w.after (Builtin.cd.call call.1 call.2)) w

namespace StandsInTree

/-- A call leaves the tree as it is, and the directories in it. -/
theorem after_call (hw : w.StandsInTree) (origin : Nat) (arguments : List String) :
    (w.after (Builtin.cd.call origin arguments)).StandsInTree ∧
      (w.after (Builtin.cd.call origin arguments)).files = w.files := by
  have hchanges := Builtin.changes_call hw origin arguments
  unfold World.after
  generalize (Builtin.cd.call origin arguments).run w = r at hchanges
  cases hchanges with
  | nowhere _ _ => exact ⟨hw.emitted _, rfl⟩
  | moves _ hreach => exact ⟨(hw.moved hreach origin).emitted _, rfl⟩
  | stays _ _ => exact ⟨hw.emitted _, rfl⟩

/-- **After any calls** the tree is as it was, and the directories are in it. -/
theorem afterChanges (hw : w.StandsInTree) (calls : List (Nat × List String)) :
    (w.afterChanges calls).StandsInTree ∧ (w.afterChanges calls).files = w.files := by
  induction calls generalizing w with
  | nil => exact ⟨hw, rfl⟩
  | cons call calls ih =>
    obtain ⟨hnext, hfiles⟩ := hw.after_call call.1 call.2
    obtain ⟨hlast, hsame⟩ := ih hnext
    exact ⟨hlast, hsame.trans hfiles⟩

end StandsInTree

end World

/-! ## Going back -/

/-- Two worlds have the same working directory and remember the same directories. -/
def World.SameDirectories (w w' : World) : Prop := w'.cwd = w.cwd ∧ w'.previous = w.previous

namespace Builtin

variable {w : World} {origin : Nat} {here : String} {l : Location}

/-- The call that goes back. -/
def back (origin : Nat) : Shell Json := Builtin.cd.call origin ["-"]

/-- **Going back** leads to the directory that is remembered unless its text is too long. -/
theorem run_back (hw : w.StandsInTree) (hl : w.files.node? l = some .directory)
    (hhere : w.here? = some here)
    (hremembered : w.previous.get? origin = some (Files.locationText l)) :
    (back origin).run w
      = if pathLimit ≤ (Files.locationText l).utf8ByteSize then
          .error (.system .nameTooLong [RawText.ofString (Files.locationText l)])
            (w.emitted [.out (Files.locationText l ++ "\n")])
        else .ok .null ((w.moved origin here l).emitted [.out (Files.locationText l ++ "\n")]) := by
  have htarget : w.target? origin ["-"] = some (Files.locationText l) := hremembered
  by_cases hlong : pathLimit ≤ (Files.locationText l).utf8ByteSize
  · rw [if_pos hlong]
    have hgo := run_go_of_long (hw.emitted (announced ["-"] (Files.locationText l))) hl hhere hlong origin
    exact Shell.run_bind_error ((run_changeDirectory htarget).trans hgo) _
  · rw [if_neg hlong]
    exact run_call_of_withinReach htarget (hw.withinReach_locationText hl hhere hlong)

/-- Where there is no way back, going back changes neither directory. -/
theorem after_back_of_stuck (hw : w.StandsInTree) (origin : Nat)
    (hstuck : ∀ here remembered, w.here? = some here → w.previous.get? origin = some remembered →
      pathLimit ≤ remembered.utf8ByteSize) : ∃ es, w.after (back origin) = w.emitted es := by
  have hchanges := changes_call hw origin ["-"]
  unfold World.after back
  generalize (Builtin.cd.call origin ["-"]).run w = r at hchanges
  cases hchanges with
  | nowhere _ _ => exact ⟨_, rfl⟩
  | stays _ _ => exact ⟨_, rfl⟩
  | moves htarget hreach =>
    -- The text of the directory that is moved to is not too long.
    obtain ⟨l, hl, rfl⟩ := hw.remembered _ _ htarget
    have hlong := run_go_of_long hw hl hreach.here (hstuck _ _ hreach.here htarget) origin
    rw [run_go_of_withinReach hreach] at hlong
    cases hlong

/-- Where the text of the remembered directory is not too long, going back exchanges both. -/
theorem after_back_of_fits (hw : w.StandsInTree) (hl : w.files.node? l = some .directory)
    (hhere : w.here? = some here) (hremembered : w.previous.get? origin = some (Files.locationText l))
    (hfits : (Files.locationText l).utf8ByteSize < pathLimit) :
    (w.moved origin here l).StandsInTree ∧
      ∃ es, w.after (back origin) = (w.moved origin here l).emitted es := by
  have hlong := Nat.not_le.mpr hfits
  have hback := run_back hw hl hhere hremembered
  rw [if_neg hlong] at hback
  exact ⟨hw.moved (hw.withinReach_locationText hl hhere hlong) origin, _, World.after_of_ok hback⟩

/-- **Going back twice** restores both directories. -/
theorem sameDirectories_back_back (hw : w.StandsInTree) (hl : w.files.node? l = some .directory)
    (hhere : w.here? = some here) (hremembered : w.previous.get? origin = some (Files.locationText l))
    (hfits : (Files.locationText l).utf8ByteSize < pathLimit) (hhereFits : here.utf8ByteSize < pathLimit) :
    w.SameDirectories ((w.after (back origin)).after (back origin)) := by
  obtain ⟨hlost, hplace⟩ := hw.of_here? hhere
  obtain rfl := (World.here?_eq_some_iff.mp hhere).2
  obtain ⟨hmoved, es, hback⟩ := after_back_of_fits hw hl hhere hremembered hfits
  obtain ⟨-, es', hforth⟩ := after_back_of_fits (hmoved.emitted es) hplace
    (World.here?_moved w origin (Files.locationText w.cwd.place) l) (Table.get?_put_self _ origin _)
    hhereFits
  rw [hback, hforth]
  constructor
  · show WorkingDirectory.ofLocation w.cwd.place = w.cwd
    rw [WorkingDirectory.ofLocation, ← hlost]
  · show (w.previous.put origin (Files.locationText w.cwd.place)).put origin (Files.locationText l)
      = w.previous
    rw [Table.put_put, Table.put_of_get? hremembered]

/-- **From a directory whose text is too long** going back twice restores nothing: there is no way back to
it. -/
theorem after_back_back_of_long (hw : w.StandsInTree) (hl : w.files.node? l = some .directory)
    (hhere : w.here? = some here) (hremembered : w.previous.get? origin = some (Files.locationText l))
    (hfits : (Files.locationText l).utf8ByteSize < pathLimit) (hlong : pathLimit ≤ here.utf8ByteSize) :
    ∃ es, (w.after (back origin)).after (back origin) = (w.moved origin here l).emitted es := by
  obtain ⟨hmoved, es, hback⟩ := after_back_of_fits hw hl hhere hremembered hfits
  have hput : (w.previous.put origin here).get? origin = some here := Table.get?_put_self _ _ _
  obtain ⟨es', hforth⟩ := after_back_of_stuck (hmoved.emitted es) origin
    fun here' remembered _ hremembered => by
      cases hput.symm.trans hremembered
      exact hlong
  exact ⟨es ++ es', by rw [hback, hforth, World.emitted_emitted]⟩

/-- Going back twice restores both directories unless the first time leaves one whose text is too long. -/
theorem sameDirectories_back_back_iff (hw : w.StandsInTree) (origin : Nat) :
    w.SameDirectories ((w.after (back origin)).after (back origin)) ↔
      ∀ here remembered, w.here? = some here → w.previous.get? origin = some remembered →
        remembered.utf8ByteSize < pathLimit → here.utf8ByteSize < pathLimit := by
  constructor
  · intro hsame here remembered hhere hremembered hfits
    by_contra hlong
    obtain ⟨l, hl, rfl⟩ := hw.remembered _ _ hremembered
    obtain ⟨es, hback⟩ := after_back_back_of_long hw hl hhere hremembered hfits (Nat.not_lt.mp hlong)
    rw [hback] at hsame
    -- What is remembered now is the text that is too long.
    have hput : (w.previous.put origin here).get? origin = w.previous.get? origin :=
      congrArg (fun t => t.get? origin) hsame.2
    rw [Table.get?_put_self, hremembered] at hput
    exact hlong (Option.some.inj hput ▸ hfits)
  · intro hfits
    by_cases hway : ∃ here remembered, w.here? = some here ∧ w.previous.get? origin = some remembered ∧
        remembered.utf8ByteSize < pathLimit
    · obtain ⟨here, remembered, hhere, hremembered, hback⟩ := hway
      obtain ⟨l, hl, rfl⟩ := hw.remembered _ _ hremembered
      exact sameDirectories_back_back hw hl hhere hremembered hback (hfits _ _ hhere hremembered hback)
    · have hstuck : ∀ here remembered, w.here? = some here → w.previous.get? origin = some remembered →
          pathLimit ≤ remembered.utf8ByteSize := fun here remembered hhere hremembered =>
        Nat.not_lt.mp fun hback => hway ⟨here, remembered, hhere, hremembered, hback⟩
      obtain ⟨es, hback⟩ := after_back_of_stuck hw origin hstuck
      obtain ⟨es', hback'⟩ := after_back_of_stuck (hw.emitted es) origin hstuck
      rw [hback, hback']
      exact ⟨rfl, rfl⟩

/-- **Back and forth.** In a connected tree, and after any calls: the tree is the same. A call that ends with a
fault, or has nowhere to go back to, changes neither the working directory nor what is remembered. Any other
call succeeds exactly if its target is within reach; then it moves there and remembers the directory just
before. Going back exchanges the two if the text of the remembered directory is shorter than a path may be;
otherwise it fails. Going back twice restores both, exactly unless the first time leaves a directory whose text
is too long to return to. -/
theorem back_and_forth_iff (hw : w.StandsInTree) (calls : List (Nat × List String)) (origin : Nat)
    (arguments : List String) :
    let v := w.afterChanges calls
    let call := Builtin.cd.call origin arguments
    (v.StandsInTree ∧ v.files = w.files) ∧
      (∀ f v', call.run v = .error f v' → v.SameDirectories v') ∧
      (v.target? origin arguments = none → ∃ v', call.run v = .ok .null v' ∧ v.SameDirectories v') ∧
      (∀ target, v.target? origin arguments = some target →
        ((∃ x v', call.run v = .ok x v') ↔ ∃ here l, v.WithinReach target here l) ∧
        ∀ x v', call.run v = .ok x v' → ∃ here l, v.WithinReach target here l ∧
          v'.cwd = .ofLocation l ∧ v'.previous = v.previous.put origin here) ∧
      (∀ here remembered, v.here? = some here → v.previous.get? origin = some remembered →
        if remembered.utf8ByteSize < pathLimit then
          ∃ v', (back origin).run v = .ok .null v' ∧ v'.here? = some remembered ∧
            v'.previous = v.previous.put origin here
        else
          ∃ v', (back origin).run v = .error (.system .nameTooLong [RawText.ofString remembered]) v' ∧
            v.SameDirectories v') ∧
      (v.SameDirectories ((v.after (back origin)).after (back origin)) ↔
        ∀ here remembered, v.here? = some here → v.previous.get? origin = some remembered →
          remembered.utf8ByteSize < pathLimit → here.utf8ByteSize < pathLimit) := by
  intro v call
  obtain ⟨hv, hfiles⟩ := hw.afterChanges calls
  have hchanges := changes_call hv origin arguments
  -- What a single call changes settles all but the last part, which is about two of them.
  refine ⟨⟨hv, hfiles⟩, fun f v' hrun => ?_, fun hnone => ?_, fun target htarget => ⟨⟨?_, ?_⟩, ?_⟩,
    fun here remembered hhere hremembered => ?_, sameDirectories_back_back_iff hv origin⟩
  · rw [hrun] at hchanges
    obtain ⟨es, rfl⟩ := hchanges.of_error
    exact ⟨rfl, rfl⟩
  · obtain ⟨hdash, hnone⟩ := World.target?_eq_none_iff.mp hnone
    exact ⟨_, run_call_nowhere hdash hnone, rfl, rfl⟩
  · rintro ⟨x, v', hrun⟩
    rw [hrun] at hchanges
    obtain ⟨here, l, es, hreach, -⟩ := hchanges.of_ok htarget
    exact ⟨here, l, hreach⟩
  · rintro ⟨here, l, hreach⟩
    exact ⟨_, _, run_call_of_withinReach htarget hreach⟩
  · intro x v' hrun
    rw [hrun] at hchanges
    obtain ⟨here, l, es, hreach, rfl⟩ := hchanges.of_ok htarget
    exact ⟨here, l, hreach, rfl, rfl⟩
  · obtain ⟨l, hl, rfl⟩ := hv.remembered _ _ hremembered
    have hback := run_back hv hl hhere hremembered
    split
    · rename_i hfits
      rw [if_neg (Nat.not_le.mpr hfits)] at hback
      exact ⟨_, hback, rfl, rfl⟩
    · rename_i hlong
      rw [if_pos (Nat.not_lt.mp hlong)] at hback
      exact ⟨_, hback, rfl, rfl⟩

/-! ## A directory behind a link -/

/-- A tree with a link to an inner directory. -/
def linkedTree : FileTree :=
  ⟨⟨[(["music"], .directory), (["music", "loud"], .directory), (["favourite"], .link "music/loud")]⟩⟩

/-- A world at the root of this tree. -/
def linkedWorld : World := { (default : World) with files := linkedTree, cwd := .ofLocation [] }

/-- The world with the link stands in its tree. -/
theorem standsInTree_linkedWorld : linkedWorld.StandsInTree where
  tree := FileTree.isConnected_of_nodes (by
    intro p hp
    simp only [linkedWorld, linkedTree, List.mem_cons, List.not_mem_nil, or_false] at hp
    obtain rfl | rfl | rfl := hp
    · exact ⟨[], "music", rfl, by decide, by decide, rfl⟩
    · exact ⟨["music"], "loud", rfl, by decide, by decide, rfl⟩
    · exact ⟨[], "favourite", rfl, by decide, by decide, rfl⟩)
  here l hl := by
    cases hl
    rfl
  remembered origin text h := by cases h

/-- The calls that follow the link and then go up. -/
def linkedCalls : List (Nat × List String) := [(0, ["favourite"]), (0, [".."])]

/-- Through the link the calls come to the directory it leads to and from there to its parent, and the
text of the directory behind the link is what is remembered. -/
theorem afterChanges_linkedWorld :
    (linkedWorld.afterChanges linkedCalls).cwd = .ofLocation ["music"] ∧
      (linkedWorld.afterChanges linkedCalls).previous.get? 0 = some "/music/loud" := by
  have hslash {rest : List String} : ¬(LastName.followed = .written ∧ FileTree.isSlashed rest = true) :=
    fun h => nomatch h.1
  have hinside : linkedTree.Leads .followed 39 [] ["music", "loud"] (.found ["music", "loud"] .directory) :=
    .enter (by decide) rfl hslash (.enter (by decide) rfl hslash .here)
  have hfollowed : linkedTree.Leads .followed FileTree.maxLinks [] ["favourite"]
      (.found ["music", "loud"] .directory) := .follow (by decide) rfl hslash (fun h => nomatch h.2) hinside
  have hfirst : linkedWorld.WithinReach "favourite" "/" ["music", "loud"] :=
    World.withinReach_of_leads rfl (by decide) rfl rfl (by decide) rfl hfollowed
  have hsecond : (linkedWorld.moved 0 "/" ["music", "loud"]).WithinReach ".." "/music/loud" ["music"] :=
    World.withinReach_of_leads rfl (by decide) rfl rfl (by decide) rfl (.up .here)
  have hafter : linkedWorld.afterChanges linkedCalls
      = (linkedWorld.moved 0 "/" ["music", "loud"]).moved 0 "/music/loud" ["music"] := by
    rw [World.afterChanges, linkedCalls, List.foldl_cons, List.foldl_cons, List.foldl_nil,
      after_call_of_withinReach (by decide) hfirst, after_call_of_withinReach (by decide) hsecond]
  rw [hafter]
  exact ⟨rfl, rfl⟩

/-- Behind a link, going back comes to the directory that the link leads to, and going back twice restores
both directories. -/
theorem back_and_forth_linked :
    linkedWorld.StandsInTree ∧
      let v := linkedWorld.afterChanges linkedCalls
      (v.here? = some "/music" ∧ v.previous.get? 0 = some "/music/loud") ∧
        (∃ v', (back 0).run v = .ok .null v' ∧ v'.here? = some "/music/loud" ∧
          v'.previous.get? 0 = some "/music") ∧
        v.SameDirectories ((v.after (back 0)).after (back 0)) := by
  refine ⟨standsInTree_linkedWorld, ?_⟩
  intro v
  obtain ⟨hcwd, hremembered⟩ := afterChanges_linkedWorld
  have hhere : v.here? = some "/music" := by
    rw [World.here?, hcwd]
    rfl
  obtain ⟨-, -, -, -, hback, htwice⟩ := back_and_forth_iff standsInTree_linkedWorld linkedCalls 0 ["-"]
  refine ⟨⟨hhere, hremembered⟩, ?_, htwice.mpr fun here remembered h _ _ => ?_⟩
  · have hexchange := hback _ _ hhere hremembered
    rw [if_pos (by decide)] at hexchange
    obtain ⟨v', hrun, hhere', hprevious⟩ := hexchange
    exact ⟨v', hrun, hhere', by rw [hprevious, Table.get?_put_self]⟩
  · cases hhere.symm.trans h
    decide

/-! ## A directory that is reached step by step -/

/-- The tree of directories in each other, of one name. -/
def chain (n : String) (k : Nat) : FileTree :=
  ⟨⟨(List.range k).map fun i => (List.replicate (i + 1) n, .directory)⟩⟩

/-- All directories of a chain are there, down to its last one. -/
theorem node?_chain (n : String) {i k : Nat} (hi : i ≤ k) :
    (chain n k).node? (List.replicate i n) = some .directory := by
  cases i with
  | zero => rfl
  | succ i =>
    have hkeys : (chain n k).nodes.keys.Nodup := by
      have hmap : (chain n k).nodes.keys = (List.range k).map fun i => List.replicate (i + 1) n := by
        rw [Table.keys, chain, List.map_map]
        rfl
      rw [hmap]
      refine List.nodup_range.map fun i j hij => ?_
      simpa using congrArg List.length hij
    have hmem : (List.replicate (i + 1) n, Node.directory) ∈ (chain n k).nodes.toList :=
      List.mem_map.mpr ⟨i, List.mem_range.mpr hi, rfl⟩
    rw [FileTree.node?, if_neg (by simp), Table.get?_of_mem hkeys hmem]

/-- A chain of directories is a connected tree. -/
theorem isConnected_chain {n : String} (hn : FileTree.IsEntryName n) (hnul : Char.ofNat 0 ∉ n.toList)
    (k : Nat) : (chain n k).IsConnected := by
  refine FileTree.isConnected_of_nodes fun p hp => ?_
  obtain ⟨i, hi, rfl⟩ := List.mem_map.mp hp
  exact ⟨List.replicate i n, n, List.replicate_succ', hn, hnul,
    node?_chain n (Nat.le_of_lt (List.mem_range.mp hi))⟩

/-- The text of a location in a chain grows by a slash and a name with every step. -/
theorem size_locationText_replicate (n : String) {k : Nat} (hk : k ≠ 0) :
    (Files.locationText (List.replicate k n)).utf8ByteSize = k * (1 + n.utf8ByteSize) := by
  have hslash : ("/" : String).utf8ByteSize = 1 := by decide
  obtain ⟨k, rfl⟩ := Nat.exists_eq_succ_of_ne_zero hk
  clear hk
  induction k with
  | zero =>
    rw [List.replicate_one, Files.locationText_singleton, String.utf8ByteSize_append, hslash, Nat.one_mul]
  | succ k ih =>
    rw [List.replicate_succ', Files.locationText_concat (by simp), String.utf8ByteSize_append,
      String.utf8ByteSize_append, ih, hslash, Nat.succ_mul (k + 1), Nat.add_assoc]

/-- A world at the root of a chain of directories. -/
def chainWorld (k : Nat) : World :=
  { (default : World) with files := chain "d" k, cwd := .ofLocation [] }

/-- A world at the root of a chain stands in its tree. -/
theorem standsInTree_chainWorld (k : Nat) : (chainWorld k).StandsInTree where
  tree := isConnected_chain (by decide) (by decide) k
  here l hl := by
    cases hl
    rfl
  remembered origin text h := by cases h

/-- The calls that go down to a directory and then one step further. -/
def chainCalls (k : Nat) : List (Nat × List String) :=
  [(0, [Files.locationText (List.replicate k "d")]), (0, ["d"])]

/-- As long as the text of the directory above is short enough to be handed on, the calls come to the end
of the chain and remember that directory. -/
theorem afterChanges_chainWorld {k : Nat}
    (hfits : (Files.locationText (List.replicate k "d")).utf8ByteSize < pathLimit) :
    (chainWorld (k + 1)).afterChanges (chainCalls k)
      = ((chainWorld (k + 1)).moved 0 "/" (List.replicate k "d")).moved 0
          (Files.locationText (List.replicate k "d")) (List.replicate (k + 1) "d") := by
  have hw := standsInTree_chainWorld (k + 1)
  have hfirst : (chainWorld (k + 1)).WithinReach (Files.locationText (List.replicate k "d")) "/"
      (List.replicate k "d") :=
    hw.withinReach_locationText (node?_chain "d" (Nat.le_succ k)) rfl (Nat.not_le.mpr hfits)
  have hdown : (chain "d" (k + 1)).Leads .followed FileTree.maxLinks (List.replicate k "d") ["d"]
      (.found (List.replicate (k + 1) "d") .directory) := by
    rw [List.replicate_succ']
    refine hw.tree.leads_down ?_
    rw [← List.replicate_succ']
    exact node?_chain "d" (Nat.le_refl _)
  have hsecond : ((chainWorld (k + 1)).moved 0 "/" (List.replicate k "d")).WithinReach "d"
      (Files.locationText (List.replicate k "d")) (List.replicate (k + 1) "d") :=
    World.withinReach_of_leads rfl (by decide) rfl rfl (by decide) rfl hdown
  have hdash : Files.locationText (List.replicate k "d") ≠ "-" := by
    intro h
    have hlist := congrArg String.toList h
    rw [Files.locationText, String.toList_append] at hlist
    exact absurd (List.cons.inj hlist).1 (by decide)
  rw [World.afterChanges, chainCalls, List.foldl_cons, List.foldl_cons, List.foldl_nil,
    after_call_of_withinReach hdash hfirst, after_call_of_withinReach (by decide) hsecond]

/-- The first directory of a chain whose text is too long is not returned to. -/
theorem no_way_back_of_long {k : Nat}
    (hfits : (Files.locationText (List.replicate k "d")).utf8ByteSize < pathLimit)
    (hlong : pathLimit ≤ (Files.locationText (List.replicate (k + 1) "d")).utf8ByteSize) :
    let high := Files.locationText (List.replicate k "d")
    let deep := Files.locationText (List.replicate (k + 1) "d")
    let v := (chainWorld (k + 1)).afterChanges (chainCalls k)
    let v' := (v.after (back 0)).after (back 0)
    (v.here? = some deep ∧ v.previous.get? 0 = some high) ∧
      (v'.here? = some high ∧ v'.previous.get? 0 = some deep) ∧ ¬v.SameDirectories v' := by
  intro high deep v v'
  have hafter : v = ((chainWorld (k + 1)).moved 0 "/" (List.replicate k "d")).moved 0 high
      (List.replicate (k + 1) "d") := afterChanges_chainWorld hfits
  have hv := ((standsInTree_chainWorld (k + 1)).afterChanges (chainCalls k)).1
  have hremembered : v.previous.get? 0 = some high := by
    rw [hafter]
    exact Table.get?_put_self _ 0 high
  have hhere : v.here? = some deep := by
    rw [hafter]
    rfl
  have hnode : v.files.node? (List.replicate k "d") = some .directory := by
    rw [hafter]
    exact node?_chain "d" (Nat.le_succ k)
  obtain ⟨es, hback⟩ := after_back_back_of_long hv hnode hhere hremembered hfits hlong
  have hback' : v' = (v.moved 0 deep (List.replicate k "d")).emitted es := hback
  refine ⟨⟨hhere, hremembered⟩, ⟨?_, ?_⟩, fun hsame => ?_⟩
  · rw [hback']
    rfl
  · rw [hback']
    exact Table.get?_put_self _ 0 deep
  · have hlimit := (sameDirectories_back_back_iff hv 0).mp hsame _ _ hhere hremembered hfits
    exact Nat.not_le.mpr hlimit hlong

/-- **There is no way back** to a directory of 4096 bytes that was reached step by step: going back twice
leaves the working directory one step above, and the deep directory remembered. -/
theorem no_way_back :
    let high := Files.locationText (List.replicate 2047 "d")
    let deep := Files.locationText (List.replicate 2048 "d")
    let v := (chainWorld 2048).afterChanges (chainCalls 2047)
    let v' := (v.after (back 0)).after (back 0)
    (chainWorld 2048).StandsInTree ∧ (v.here? = some deep ∧ v.previous.get? 0 = some high) ∧
      (v'.here? = some high ∧ v'.previous.get? 0 = some deep) ∧ ¬v.SameDirectories v' := by
  have hsize (k : Nat) (hk : k ≠ 0) : (Files.locationText (List.replicate k "d")).utf8ByteSize = k * 2 :=
    size_locationText_replicate "d" hk
  have hfits : (Files.locationText (List.replicate 2047 "d")).utf8ByteSize < pathLimit := by
    rw [hsize _ (by decide)]
    decide
  have hlong : pathLimit ≤ (Files.locationText (List.replicate (2047 + 1) "d")).utf8ByteSize := by
    rw [hsize _ (by decide)]
    decide
  exact ⟨standsInTree_chainWorld 2048, no_way_back_of_long hfits hlong⟩

end Builtin

end CommandShell
