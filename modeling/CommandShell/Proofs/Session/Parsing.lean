import CommandShell.Proofs.Session.Loading
import CommandShell.Proofs.Text.Trim

/-! # What reading a line does to a session

Reading a line searches for modules and does nothing else (`searching_parse`). The commands that come of
it are such as a line can write: texts for the host that are not blank, and internal commands with a
name (`gives_parse`). -/

namespace CommandShell

open World

namespace Session

/-! ## Who is internal -/

/-- In a ready world every name is looked up without a fault. -/
theorem run_lookup {w : World} (h : w.Ready) (name : String) :
    ∃ found, w.commands.find name = .ok found ∧
      (Shell.lookup w.context.registry name).run w = .ok found w := by
  obtain ⟨found, hfound⟩ := h.commands.closed.find_ok name
  refine ⟨found, hfound, ?_⟩
  unfold World.commands at hfound
  unfold Shell.lookup
  rw [Shell.run_bind_ok (EStateM.run_get w), hfound]
  rfl

/-- Asking whether a name is registered is a search. -/
theorem searching_isRegistered (name : String) : Searching (isRegistered name) := by
  intro w hready
  obtain ⟨found, _, hlookup⟩ := run_lookup hready name
  have hrun : (isRegistered name).run w = .ok found.isSome w := by
    unfold isRegistered
    rw [Shell.run_bind_ok (EStateM.run_get w), Shell.run_bind_ok hlookup]
    rfl
  rw [after_of_ok hrun]
  refine ⟨hready, .refl w, ?_⟩
  intro f w' h
  rw [hrun] at h
  cases h

/-- So is asking whether it is internal, which may load modules. -/
theorem searching_isInternal (name : String) : Searching (isInternal name) := by
  -- First what is registered is asked, then what is available, then everything is loaded.
  refine (searching_isRegistered name).bind ?_
  intro registered
  split
  · exact .pure true
  · refine (Searching.index.bind fun t => .pure _).bind ?_
    intro available
    split
    · exact .pure true
    · exact (Searching.loadAll false).bind fun _ => searching_isRegistered name

/-- So is asking whoever decides it. -/
theorem searching_classify (name : String) : Searching (classify name) := by
  refine Searching.get.bind ?_
  intro w
  split
  · exact searching_isInternal name
  · exact .pure true
  · exact .pure _

/-! ## Reading -/

/-- So is reading one segment. -/
theorem searching_readSegment (segment : List Char) :
    Searching (Line.readSegment classify segment) := by
  unfold Line.readSegment
  split
  · exact .pure _
  · exact (searching_classify _).bind fun _ => .pure _
  · exact .pure _

/-- So is reading some. -/
theorem searching_readSegments (segments : List (List Char)) :
    Searching (Line.readSegments classify segments) := by
  induction segments with
  | nil => exact .pure _
  | cons s ss ih =>
    refine (searching_readSegment s).bind ?_
    intro r
    split
    · exact .pure _
    · refine ih.bind ?_
      intro rs
      split
      · exact .pure _
      · exact .pure _

/-- **Reading a line** searches for modules and does nothing else. -/
theorem searching_parse (line : String) : Searching (parse line) := by
  have hread : Searching (Line.read classify line.toList) := by
    unfold Line.read
    split
    · exact .pure _
    · exact searching_readSegments _
  refine Searching.bind (.recover ?_ _) fun reading => ?_
  · exact hread.bind fun r => .pure _
  · split
    · exact (Searching.log _ _ _).bind fun _ => .pure _
    · exact (Searching.log _ _ _).bind fun _ => .pure _

/-! ## The commands of a line -/

/-- A command as a line writes it: a text for the host that is not blank, or an internal command with
a name. -/
inductive Written : Command → Prop
  | forHost {raw : String} (h : Line.isBlank raw = false) : Written (.ofSystem raw)
  | internal (name : String) (values parameters : List String) :
    Written (.internal name values parameters)

/-- What trimming leaves is not blank. -/
theorem isBlank_ofList_trim {cs : List Char} (h : Text.trim cs ≠ []) :
    Line.isBlank (String.ofList (Text.trim cs)) = false := by
  unfold Line.isBlank
  rw [String.toList_ofList, Text.trim_trim]
  exact List.isEmpty_eq_false_iff.mpr h

/-- The command of a trimmed segment is one that a line writes. -/
theorem gives_readSegment {cs : List Char} (h : Text.trim cs ≠ []) :
    Shell.Gives (fun r => ∀ c?, r = .ok c? → ∀ c ∈ c?, Written c)
      (Line.readSegment classify (Text.trim cs)) := by
  unfold Line.readSegment
  split
  · exact Shell.gives_pure fun c? hr => by cases hr
  · refine Shell.gives_bind (Shell.gives_any _) fun isInternal _ => Shell.gives_pure ?_
    rintro c? ⟨⟩ c hc
    rw [Option.mem_def, Reading.command] at hc
    split at hc
    · cases hc
      exact .internal _ _ _
    · cases hc
      exact .forHost (isBlank_ofList_trim h)
  · rename_i r hnamed hsegment
    refine Shell.gives_pure ?_
    rintro c? ⟨⟩ c hc
    cases r with
    | nothing => cases hc
    | named name arguments => exact (hnamed name arguments rfl).elim
    | forHost text =>
      cases hc
      -- Only a text behind the mark is for the host without a question.
      unfold Reading.ofSegment at hsegment
      split at hsegment
      · rename_i rest _
        by_cases hrest : Text.trim rest = []
        · rw [hrest] at hsegment
          cases hsegment
        · simp only [List.isEmpty_eq_false_iff.mpr hrest] at hsegment
          cases hsegment
          exact .forHost (isBlank_ofList_trim hrest)
      · cases htokens : Token.ofChars (Text.trim cs) with
        | error f =>
          rw [htokens] at hsegment
          cases hsegment
        | ok ws =>
          rw [htokens] at hsegment
          cases ws with
          | nil => cases hsegment
          | cons t ts => cases hsegment

/-- Commands that are read from trimmed segments are written. -/
theorem gives_readSegments {segments : List (List Char)}
    (h : ∀ s ∈ segments, ∃ cs, s = Text.trim cs ∧ Text.trim cs ≠ []) :
    Shell.Gives (fun r => ∀ cs, r = .ok cs → ∀ c ∈ cs, Written c)
      (Line.readSegments classify segments) := by
  induction segments with
  | nil =>
    refine Shell.gives_pure ?_
    rintro cs ⟨⟩ c hc
    exact absurd hc List.not_mem_nil
  | cons s ss ih =>
    obtain ⟨cs, rfl, hcs⟩ := h s List.mem_cons_self
    have hrest := ih fun s hs => h s (List.mem_cons_of_mem _ hs)
    -- The first segment that cannot be read ends the reading of the line.
    refine Shell.gives_bind (gives_readSegment hcs) ?_
    intro r hr
    split
    · exact Shell.gives_pure fun cs h => by cases h
    · rename_i c?
      refine Shell.gives_bind hrest ?_
      intro rs hrs
      split
      · exact Shell.gives_pure fun cs h => by cases h
      · rename_i more
        refine Shell.gives_pure ?_
        rintro cs ⟨⟩ c hc
        rcases List.mem_append.mp hc with hc | hc
        · exact hr c? rfl c (Option.mem_toList.mp hc)
        · exact hrs more rfl c hc

/-- **The commands of a line** are such as a line writes. -/
theorem gives_parse (line : String) :
    Shell.Gives (fun cs => ∀ c ∈ cs, Written c) (parse line) := by
  have hnil : ∀ c ∈ ([] : List Command), Written c := fun c hc => absurd hc List.not_mem_nil
  have hread : Shell.Gives (fun r => ∀ cs, r = .ok cs → ∀ c ∈ cs, Written c)
      (Line.read classify line.toList) := by
    unfold Line.read
    split
    · exact Shell.gives_pure fun cs h => by cases h
    · rename_i segments hsegments
      refine gives_readSegments ?_
      intro s hs
      obtain ⟨cs, -, rfl, hne⟩ := Line.mem_segments hsegments hs
      exact ⟨cs, rfl, hne⟩
  have hreading : Shell.Gives (fun r : Except String (List Command) =>
      ∀ cs, r = .ok cs → ∀ c ∈ cs, Written c)
      (Shell.recover Fault.isValue
        (Line.read classify line.toList >>= fun r => pure (r.mapError Token.Fault.message))
        fun f => pure (.error f.message)) := by
    refine Shell.gives_recover ?_ fun f => Shell.gives_pure fun cs h => by cases h
    refine Shell.gives_bind hread fun r hr => Shell.gives_pure fun cs h => ?_
    cases r with
    | ok cs' =>
      cases h
      exact hr cs rfl
    | error e => cases h
  -- A line that cannot be read gives no command at all.
  refine Shell.gives_bind hreading ?_
  intro reading hr
  split
  · exact Shell.gives_bind (Shell.gives_any _) fun _ _ => Shell.gives_pure hnil
  · rename_i cs
    exact Shell.gives_bind (Shell.gives_any _) fun _ _ => Shell.gives_pure (hr cs rfl)

end Session

end CommandShell
