import CommandShell.Proofs.Command.Replay
import CommandShell.Proofs.Command.Stripping

/-! # Lines put together

Two lines with a separator between them have the segments of the one and then those of the other, unless
the first one ends in a bare backslash, which would protect the separator (`Line.segments?_append`). A
segment may end in such a backslash, for trimming takes the blank that it protected, so segments are put
together again with blanks around the separators (`Line.segments?_rejoin`). -/

namespace CommandShell

namespace Line

open Token

/-! ## Cutting at a separator -/

/-- What is put in front of pieces only concerns the first of them. -/
theorem extend_append (cs : List Char) {ps : List (List Char)} (hne : ps ≠ [])
    (qs : List (List Char)) : extend cs (ps ++ qs) = extend cs ps ++ qs := by
  cases ps with
  | nil => exact absurd rfl hne
  | cons p ps => rfl

/-- **A separator outside quotes** ends a piece, and what stands behind it is cut as a line of its own. -/
theorem rawPieces_append_separator {q : Scan} {cs : List Char} (h : q.after cs = .plain)
    (ds : List Char) :
    rawPieces q (cs ++ separator :: ds) = rawPieces q cs ++ rawPieces .plain ds := by
  induction cs generalizing q with
  | nil =>
    obtain rfl : q = .plain := h
    rw [List.nil_append, rawPieces_separator]
    rfl
  | cons c cs ih =>
    -- The character ends a piece, or it belongs to the first piece of the rest.
    by_cases hcut : q = .plain ∧ c = separator
    · obtain ⟨rfl, rfl⟩ := hcut
      have hrest : Scan.plain.after cs = .plain := h
      rw [List.cons_append, rawPieces_separator, ih hrest, rawPieces_separator, List.cons_append]
    · rw [List.cons_append, rawPieces_cons hcut, ih h, rawPieces_cons hcut,
        extend_append [c] (rawPieces_ne_nil _ _)]

/-- A line that leaves no quote open and does not end in a bare backslash ends outside quotes. -/
theorem after_eq_plain {cs : List Char} (hopen : (Scan.plain.after cs).isOpen = false)
    (hbare : ¬ Quoted.EndsBare cs) : Scan.plain.after cs = .plain := by
  rw [← Scan.after_eq_escaped_iff] at hbare
  cases h : Scan.plain.after cs with
  | plain => rfl
  | escaped => exact absurd h hbare
  | single | double | doubleEscaped =>
    rw [h] at hopen
    cases hopen

/-- **Two lines with a separator between them** have the segments of both, or none if the second line has
none. -/
theorem segments?_append {line : List Char} {segments : List (List Char)}
    (h : segments? line = some segments) (hbare : ¬ Quoted.EndsBare line) (more : List Char) :
    segments? (line ++ separator :: more) = (segments? more).map (segments ++ ·) := by
  obtain ⟨hopen, hsegments⟩ := segments?_eq_some_iff.mp h
  have hplain := after_eq_plain hopen hbare
  have hafter : Scan.plain.after (line ++ separator :: more) = Scan.plain.after more := by
    rw [Scan.after_append, hplain, Scan.after_cons]
    rfl
  rw [segments?, segments?, hafter, rawPieces_append_separator hplain, List.map_append,
    List.filter_append, hsegments]
  split
  · rfl
  · rfl

/-! ## Segments as lines -/

/-- **A segment is the only segment of itself**, even if it ends in a bare backslash. -/
theorem segments?_of_mem_segments {line : List Char} {segments : List (List Char)}
    (h : segments? line = some segments) {s : List Char} (hs : s ∈ segments) :
    segments? s = some [s] := by
  obtain ⟨htrim, hne⟩ := trimmed_of_mem_segments h hs
  have hpieces : rawPieces .plain s = [s] := by
    have hwhole := rawPieces_append (unbroken_of_mem_segments h hs) []
    rwa [List.append_nil, rawPieces_nil, extend_cons, List.append_nil] at hwhole
  refine segments?_eq_some_iff.mpr ⟨isOpen_of_mem_segments h hs, ?_⟩
  rw [hpieces, List.map_singleton, htrim]
  exact List.filter_eq_self.mpr (by simp [hne])

/-- A leading blank is trimmed away. -/
theorem trim_cons_of_isBlank {b : Char} (hb : Text.isBlank b = true) (cs : List Char) :
    Text.trim (b :: cs) = Text.trim cs :=
  Text.trim_blanks_append (List.forall_mem_singleton.mpr hb) cs

/-- A blank behind a line is not seen, and it leaves no bare backslash at the end. -/
theorem segments?_concat_blank (line : List Char) :
    segments? (line ++ [' ']) = segments? line ∧ ¬ Quoted.EndsBare (line ++ [' ']) := by
  constructor
  · have hblank : Text.isBlank ' ' = true := by decide
    rw [← segments?_trim, Text.trim_append_blanks (List.forall_mem_singleton.mpr hblank), segments?_trim]
  · rintro ⟨front, -, hlast⟩
    have hchar := (List.append_inj' hlast rfl).2
    exact absurd hchar (by decide)

/-- What segments are put together with again. -/
def spacedSeparator : List Char := [' ', separator, ' ']

/-- **Segments put together** with spaced separators are cut into these segments. -/
theorem segments?_rejoin {segments : List (List Char)} (h : ∀ s ∈ segments, segments? s = some [s]) :
    segments? (List.intercalate spacedSeparator segments) = some segments := by
  induction segments with
  | nil => rfl
  | cons s ss ih =>
    obtain ⟨hs, hss⟩ := List.forall_mem_cons.mp h
    cases ss with
    | nil =>
      rw [List.intercalate_singleton]
      exact hs
    | cons t ts =>
      obtain ⟨hblank, hbare⟩ := segments?_concat_blank s
      have hjoined : List.intercalate spacedSeparator (s :: t :: ts) = (s ++ [' ']) ++
          separator :: ' ' :: List.intercalate spacedSeparator (t :: ts) := by
        rw [List.intercalate_cons_cons, List.append_assoc, List.append_assoc]
        rfl
      -- The blank behind the separator stands in front of a line, and is not seen either.
      rw [hjoined, segments?_append (hblank.trans hs) hbare, ← segments?_trim, trim_cons_of_isBlank
        (by decide), segments?_trim, ih hss]
      rfl

/-- **Cutting a line is compositional.** Let a line have segments and not end in a bare backslash. With a
separator and any text behind it, it has its segments and then those of the text, and it has none exactly
if the text has none. The segments of any line, put together with spaced separators, have these
segments. -/
theorem segments?_compositional {line : List Char} {segments : List (List Char)}
    (h : segments? line = some segments) :
    (¬ Quoted.EndsBare line → ∀ more,
      segments? (line ++ separator :: more) = (segments? more).map (segments ++ ·)) ∧
    segments? (List.intercalate spacedSeparator segments) = some segments :=
  ⟨fun hbare => segments?_append h hbare, segments?_rejoin fun _ => segments?_of_mem_segments h⟩

/-- A line with a quoted separator, of which the last segment but one ends in a bare backslash. -/
theorem segments?_compositional_quoted :
    segments? "say 'a;b';ls\\ ; pwd".toList
      = some ["say 'a;b'".toList, "ls\\".toList, "pwd".toList] ∧
    ¬ Quoted.EndsBare "say 'a;b';ls\\ ; pwd".toList ∧
    segments? ("say 'a;b';ls\\ ; pwd".toList ++ separator :: "quit".toList)
      = some ["say 'a;b'".toList, "ls\\".toList, "pwd".toList, "quit".toList] ∧
    segments? ("say 'a;b';ls\\ ; pwd".toList ++ separator :: "'quit".toList) = none ∧
    segments? "say 'a;b' ; ls\\ ; pwd".toList
      = some ["say 'a;b'".toList, "ls\\".toList, "pwd".toList] := by
  have hline : segments? "say 'a;b';ls\\ ; pwd".toList
      = some ["say 'a;b'".toList, "ls\\".toList, "pwd".toList] := by decide
  have hbare : ¬ Quoted.EndsBare "say 'a;b';ls\\ ; pwd".toList := by
    rw [← Scan.after_eq_escaped_iff]
    decide
  obtain ⟨happend, hrejoin⟩ := segments?_compositional hline
  refine ⟨hline, hbare, ?_, ?_, hrejoin⟩
  · rw [happend hbare]
    decide
  · rw [happend hbare]
    decide

end Line

end CommandShell
