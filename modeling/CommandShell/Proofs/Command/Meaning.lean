import CommandShell.Proofs.Command.Quoting
import CommandShell.Proofs.Text.Trim
import Mathlib.Data.List.Forall2
import Mathlib.Data.List.ReduceOption

/-! # What a line means

Where a predicate tells the internal names, what a segment means is a matter of the segment alone
(`Line.Means`), unless the reader of tokens rejects it. Reading a line gives what its segments mean, in
their order, or nothing at all if one of them is rejected (`Session.parse_under_predicate`). The commands
that come of it are proper: each is either for the host or internal (`Line.Means.proper`). -/

namespace CommandShell

/-- A command as a line writes it: it has a name or a text for the host, not both, and no empty list of
arguments. -/
structure Command.Proper (c : Command) : Prop where
  /-- Exactly one of the two is there. -/
  exclusive : c.name.isSome = !c.system.isSome
  /-- A text for the host is trimmed and not blank, and has no arguments beside it. -/
  system : ∀ text ∈ c.system, Line.isBlank text = false ∧ Text.strip text = text ∧
    c.values = none ∧ c.parameters = none
  /-- There is no empty list of values. -/
  values : c.values ≠ some []
  /-- There is no empty list of parameters. -/
  parameters : c.parameters ≠ some []
  /-- There is something. -/
  filled : c.isEmpty = false

namespace Command

/-- A part of a command is absent rather than an empty list. -/
theorem listed_ne_some_nil (xs : List String) : listed xs ≠ some [] := by
  cases xs <;> simp [listed]

/-- Every internal command that is built from its parts is proper. -/
theorem proper_internal (name : String) (values parameters : List String) :
    (internal name values parameters).Proper where
  exclusive := rfl
  system _ htext := nomatch htext
  values := listed_ne_some_nil values
  parameters := listed_ne_some_nil parameters
  filled := rfl

/-- A trimmed text that is not empty makes a proper command for the host. -/
theorem proper_ofSystem {cs : List Char} (hne : cs ≠ []) (htrim : Text.trim cs = cs) :
    (ofSystem (String.ofList cs)).Proper where
  exclusive := rfl
  system text htext := by
    rw [← Option.some.inj htext, Line.isBlank, Text.strip, String.toList_ofList, htrim]
    exact ⟨List.isEmpty_eq_false_iff.mpr hne, rfl, rfl, rfl⟩
  values := nofun
  parameters := nofun
  filled := rfl

end Command

namespace Token

/-- What separates tokens is among what trimming takes. -/
theorem isBlank_of_isGap {c : Char} (h : isGap c = true) : Text.isBlank c = true := by
  simp only [isGap, Bool.or_eq_true, beq_iff_eq] at h
  rcases h with ((rfl | rfl) | rfl) | rfl <;> decide

/-- A text that starts with a character that is not blank has a token, or no tokens at all. -/
theorem ofChars_ne_ok_nil {c : Char} (h : Text.isBlank c = false) (cs : List Char) :
    ofChars (c :: cs) ≠ .ok [] := by
  have hgap : ¬ isGap c = true := by
    intro hgap
    rw [isBlank_of_isGap hgap] at h
    exact nomatch h
  -- The first character begins a word.
  rw [ofChars, scan, if_neg hgap]
  split
  · exact scan_ne_nil (by decide) cs
  · split
    · exact scan_ne_nil (by decide) cs
    · split
      · exact scan_ne_nil (by decide) cs
      · exact map_ne_nil (extend_ne_nil [c]) _

end Token

namespace Line

/-! ## The meaning of a segment -/

/-- What a segment means where `p` tells the internal names: one command or none. A mark with nothing
behind it means none, and what stands behind it otherwise is for the host. So is the whole segment if its
first token names no internal command. -/
inductive Means (p : String → Bool) : List Char → Option Command → Prop
  | nothing {rest : List Char} (h : ∀ c ∈ rest, Text.isBlank c = true) : Means p ('!' :: rest) none
  | marked {rest : List Char} (h : ∃ c ∈ rest, Text.isBlank c = false) :
    Means p ('!' :: rest) (some (.ofSystem (Text.strip (String.ofList rest))))
  | forHost {s name : List Char} {arguments : List (List Char)} (hmark : s.head? ≠ some '!')
      (htokens : Token.ofChars s = .ok (name :: arguments)) (hname : p (String.ofList name) = false) :
    Means p s (some (.ofSystem (String.ofList s)))
  | internal {s name : List Char} {arguments : List (List Char)} (hmark : s.head? ≠ some '!')
      (htokens : Token.ofChars s = .ok (name :: arguments)) (hname : p (String.ofList name) = true) :
    Means p s (some (.internal (String.ofList name)
      (Argument.classify (arguments.map String.ofList)).1
      (Argument.classify (arguments.map String.ofList)).2))

/-- The reader of tokens rejects a segment, which is not marked for the host. -/
def Rejected (s : List Char) (f : Token.Fault) : Prop := s.head? ≠ some '!' ∧ Token.ofChars s = .error f

/-- A line cannot be read: it leaves a quote open, or one of its segments is rejected. -/
def Unreadable (line : List Char) (f : Token.Fault) : Prop :=
  (segments? line = none ∧ f = .openQuote) ∨
    ∃ segments, segments? line = some segments ∧ ∃ s ∈ segments, Rejected s f

variable {p : String → Bool}

/-- **What a trimmed segment means is proper.** -/
theorem Means.proper {s : List Char} {c? : Option Command} (h : Means p s c?)
    (htrim : Text.trim s = s) (hne : s ≠ []) : ∀ c ∈ c?, c.Proper := by
  intro c hc
  cases h with
  | nothing h => exact nomatch hc
  | marked h =>
    rename_i rest
    rw [← Option.some.inj hc, Text.strip, String.toList_ofList]
    refine Command.proper_ofSystem ?_ (Text.trim_trim rest)
    intro hnil
    obtain ⟨c, hc, hblank⟩ := h
    rw [Text.trim_eq_nil_iff.mp hnil c hc] at hblank
    exact nomatch hblank
  | forHost hmark htokens hname =>
    rw [← Option.some.inj hc]
    exact Command.proper_ofSystem hne htrim
  | internal hmark htokens hname =>
    rw [← Option.some.inj hc]
    exact Command.proper_internal _ _ _

/-- A marked segment is read as what it means. -/
theorem readSegment_mark (p : String → Bool) (rest : List Char) :
    ∃ c?, Means p ('!' :: rest) c? ∧
      Id.run (readSegment (fun n => pure (p n)) ('!' :: rest)) = .ok c? := by
  by_cases h : Text.trim rest = []
  · refine ⟨none, .nothing (Text.trim_eq_nil_iff.mp h), ?_⟩
    simp [readSegment, Reading.ofSegment, h, Reading.command]
  · refine ⟨_, .marked ?_, ?_⟩
    · by_contra hblank
      refine h (Text.trim_eq_nil_iff.mpr fun c hc => ?_)
      by_contra hc'
      exact hblank ⟨c, hc, Bool.eq_false_iff.mpr hc'⟩
    · simp [readSegment, Reading.ofSegment, h, Reading.command, Text.strip]

/-- A trimmed segment is rejected, or it is read as what it means. -/
theorem readSegment_cases (p : String → Bool) {s : List Char} (htrim : Text.trim s = s) (hne : s ≠ []) :
    (∃ f, Rejected s f ∧ Id.run (readSegment (fun n => pure (p n)) s) = .error f) ∨
      ((∀ f, ¬ Rejected s f) ∧
        ∃ c?, Means p s c? ∧ Id.run (readSegment (fun n => pure (p n)) s) = .ok c?) := by
  by_cases hmark : s.head? = some '!'
  · obtain ⟨rest, rfl⟩ := List.head?_eq_some_iff.mp hmark
    exact .inr ⟨fun f hf => hf.1 rfl, readSegment_mark p rest⟩
  · have hreading := Reading.ofSegment_of_unmarked hmark
    unfold readSegment
    cases htokens : Token.ofChars s with
    | error f =>
      rw [hreading, htokens]
      exact .inl ⟨f, ⟨hmark, htokens⟩, rfl⟩
    | ok ts =>
      refine .inr ⟨fun f hf => ?_, ?_⟩
      · rw [hf.2] at htokens
        cases htokens
      · cases ts with
        | nil =>
          -- A trimmed segment starts with a character that is not blank.
          obtain ⟨c, cs, rfl⟩ := List.exists_cons_of_ne_nil hne
          exact absurd htokens (Token.ofChars_ne_ok_nil (Text.isBlank_head_trim htrim) cs)
        | cons name arguments =>
          rw [hreading, htokens]
          cases hname : p (String.ofList name) with
          | false =>
            refine ⟨_, .forHost hmark htokens hname, ?_⟩
            simp [Except.map, Reading.ofWords, Reading.command, hname]
          | true =>
            refine ⟨_, .internal hmark htokens hname, ?_⟩
            simp [Except.map, Reading.ofWords, Reading.command, hname]

/-! ## The meaning of a line -/

/-- A segment of a line is trimmed already, and not empty. -/
theorem trimmed_of_mem_segments {line : List Char} {segments : List (List Char)}
    (hline : segments? line = some segments) {s : List Char} (hs : s ∈ segments) :
    Text.trim s = s ∧ s ≠ [] := by
  obtain ⟨piece, -, rfl, hne⟩ := mem_segments hline hs
  exact ⟨Text.trim_trim piece, hne⟩

/-- Segments are read one after the other. -/
theorem run_readSegments_cons (p : String → Bool) (s : List Char) (ss : List (List Char)) :
    Id.run (readSegments (fun n => pure (p n)) (s :: ss))
      = (Id.run (readSegment (fun n => pure (p n)) s)).bind fun c? =>
        (Id.run (readSegments (fun n => pure (p n)) ss)).map (c?.toList ++ ·) := by
  rw [readSegments, Id.run_bind]
  cases Id.run (readSegment (fun n => pure (p n)) s) with
  | error f => rfl
  | ok c? =>
    show Id.run (readSegments (m := Id) _ _ >>= _) = _
    rw [Id.run_bind]
    cases Id.run (readSegments (fun n => pure (p n)) ss) with
    | error f => rfl
    | ok cs => rfl

/-- Reading segments ends with the fault of a segment that is rejected, or no segment is rejected and each
gives the command it means, if any, in order. -/
theorem readSegments_cases (p : String → Bool) {segments : List (List Char)}
    (h : ∀ s ∈ segments, Text.trim s = s ∧ s ≠ []) :
    (∃ f, (∃ s ∈ segments, Rejected s f) ∧
        Id.run (readSegments (fun n => pure (p n)) segments) = .error f) ∨
      ((∀ s ∈ segments, ∀ f, ¬ Rejected s f) ∧ ∃ found, List.Forall₂ (Means p) segments found ∧
        Id.run (readSegments (fun n => pure (p n)) segments) = .ok found.reduceOption) := by
  induction segments with
  | nil => exact .inr ⟨fun s hs => absurd hs List.not_mem_nil, [], .nil, rfl⟩
  | cons s ss ih =>
    obtain ⟨htrim, hne⟩ := h s List.mem_cons_self
    rw [run_readSegments_cons]
    obtain ⟨f, hf, hs⟩ | ⟨hs, c?, hc, hread⟩ := readSegment_cases p htrim hne
    · exact .inl ⟨f, ⟨s, List.mem_cons_self, hf⟩, by rw [hs]; rfl⟩
    · rw [hread]
      obtain ⟨f, ⟨t, ht, hf⟩, hss⟩ | ⟨hss, found, hfound, hreads⟩ :=
        ih fun t ht => h t (List.mem_cons_of_mem s ht)
      · exact .inl ⟨f, ⟨t, List.mem_cons_of_mem s ht, hf⟩, by rw [hss]; rfl⟩
      · refine .inr ⟨List.forall_mem_cons.mpr ⟨hs, hss⟩, c? :: found, .cons hc hfound, ?_⟩
        rw [hreads]
        cases c? with
        | none => rfl
        | some c => rfl

/-- **A line cannot be read, or reading it gives what its segments mean.** -/
theorem read_cases (p : String → Bool) (line : List Char) :
    (∃ f, Unreadable line f ∧ Id.run (read (fun n => pure (p n)) line) = .error f) ∨
      ((∀ f, ¬ Unreadable line f) ∧ ∃ segments found, segments? line = some segments ∧
        List.Forall₂ (Means p) segments found ∧
        Id.run (read (fun n => pure (p n)) line) = .ok found.reduceOption) := by
  unfold read
  cases hline : segments? line with
  | none => exact .inl ⟨.openQuote, .inl ⟨hline, rfl⟩, rfl⟩
  | some segments =>
    obtain ⟨f, hf, hread⟩ | ⟨hnone, found, hfound, hread⟩ :=
      readSegments_cases p fun s => trimmed_of_mem_segments hline
    · exact .inl ⟨f, .inr ⟨segments, hline, hf⟩, hread⟩
    · refine .inr ⟨?_, segments, found, rfl, hfound, hread⟩
      rintro f (⟨hno, -⟩ | ⟨ss, hss, s, hs, hf⟩)
      · rw [hline] at hno
        exact nomatch hno
      · rw [hline] at hss
        cases hss
        exact hnone s hs f hf

/-- What the segments of a line mean is proper. -/
theorem proper_of_means {segments : List (List Char)} {found : List (Option Command)}
    (h : List.Forall₂ (Means p) segments found)
    (htrim : ∀ s ∈ segments, Text.trim s = s ∧ s ≠ []) : ∀ c ∈ found.reduceOption, c.Proper := by
  induction h with
  | nil => exact fun c hc => absurd hc List.not_mem_nil
  | @cons s c? ss found hmeans _ ih =>
    obtain ⟨hs, hss⟩ := List.forall_mem_cons.mp htrim
    intro c hc
    rcases List.mem_cons.mp (List.reduceOption_mem_iff.mp hc) with hc | hc
    · exact hmeans.proper hs.1 hs.2 c hc.symm
    · exact ih hss c (List.reduceOption_mem_iff.mpr hc)

end Line

/-- **Parsing under a predicate.** A line that cannot be read has no commands and one warning, which says
why. Any other has the commands that its segments mean, in their order, and no warning; and these
commands are proper. -/
theorem Session.parse_under_predicate (p : String → Bool) (line : String) (w : World) :
    (∃ f, Line.Unreadable line.toList f ∧
      (parseWith (fun n => pure (p n)) line).run w
        = .ok [] (w.emitted (w.reports .warning .parser
            ("Cannot parse " ++ Text.quoted line ++ ": " ++ f.message)))) ∨
    ((∀ f, ¬ Line.Unreadable line.toList f) ∧ ∃ segments found,
      Line.segments? line.toList = some segments ∧ List.Forall₂ (Line.Means p) segments found ∧
      (parseWith (fun n => pure (p n)) line).run w
        = .ok found.reduceOption (w.emitted (w.reports .debug .parser ("Parsed " ++ Text.quoted line
            ++ " into " ++ toString found.reduceOption.length ++ " command(s)"))) ∧
      ∀ c ∈ found.reduceOption, c.Proper) := by
  have hask (n : String) : (pure (p n) : Shell Bool).run w = .ok (p n) w := rfl
  rw [run_parseWith_of_answers hask line]
  obtain ⟨f, hf, hread⟩ | ⟨hnone, segments, found, hline, hfound, hread⟩ :=
    Line.read_cases p line.toList
  · rw [hread]
    exact .inl ⟨f, hf, rfl⟩
  · rw [hread]
    exact .inr ⟨hnone, segments, found, hline, hfound, rfl,
      Line.proper_of_means hfound fun s => Line.trimmed_of_mem_segments hline⟩

end CommandShell
