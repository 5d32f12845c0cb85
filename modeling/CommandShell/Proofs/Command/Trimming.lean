import CommandShell.Proofs.Command.Meaning
import CommandShell.Proofs.Command.Quotes

/-! # What trimming takes from a segment

A segment is what trimming leaves of a piece of the line. Trimming looks for blanks, the reader of tokens
for gaps and escapes, and not every blank is a gap. `Scan.kept` is what a text brings into its words; with
it `Token.ofChars_trim_iff` tells exactly which pieces have the tokens of their segment: those of which
trimming takes gaps only, and no gap that a backslash protects. `Line.tokens_of_pieces` says what this
means for a line. -/

namespace CommandShell

/-! ## What a text brings into its words -/

namespace Scan

/-- What a character brings into the words: itself, unless it is a gap or a mark of quoting. -/
def keeps : Scan → Char → List Char
  | plain, c => if Token.isGap c ∨ c = '\\' ∨ c = '\'' ∨ c = '"' then [] else [c]
  | escaped, c => [c]
  | single, c => if c = '\'' then [] else [c]
  | double, c => if c = '"' ∨ c = '\\' then [] else [c]
  | doubleEscaped, c => if c = '"' ∨ c = '\\' then [c] else ['\\', c]

/-- What a text brings into the words. -/
def kept : Scan → List Char → List Char
  | _, [] => []
  | q, c :: cs => q.keeps c ++ kept (q.step c) cs

/-- A text brings into the words what its first character brings, then what the rest brings. -/
theorem kept_cons (q : Scan) (c : Char) (cs : List Char) :
    q.kept (c :: cs) = q.keeps c ++ (q.step c).kept cs := rfl

/-- A concatenation brings what its parts bring, the second read in the state that the first leaves. -/
theorem kept_append (q : Scan) (cs ds : List Char) :
    q.kept (cs ++ ds) = q.kept cs ++ (q.after cs).kept ds := by
  induction cs generalizing q with
  | nil => rfl
  | cons c cs ih => rw [List.cons_append, kept_cons, ih, kept_cons, List.append_assoc, after_cons]

/-- Of blanks outside quotes those are kept that are no gaps. -/
theorem kept_blanks {cs : List Char} (h : ∀ c ∈ cs, Text.isBlank c = true) :
    plain.kept cs = cs.filter fun c => !Token.isGap c := by
  induction cs with
  | nil => rfl
  | cons c cs ih =>
    obtain ⟨hc, hcs⟩ := List.forall_mem_cons.mp h
    have hslash : c ≠ '\\' := by rintro rfl; exact absurd hc (by decide)
    have hsingle : c ≠ '\'' := by rintro rfl; exact absurd hc (by decide)
    have hdouble : c ≠ '"' := by rintro rfl; exact absurd hc (by decide)
    rw [kept_cons, (step_blank hc).1, ih hcs]
    cases hgap : Token.isGap c <;> simp [keeps, hgap, hslash, hsingle, hdouble]

/-- Blanks outside quotes bring nothing exactly if all of them are gaps. -/
theorem kept_blanks_eq_nil_iff {cs : List Char} (h : ∀ c ∈ cs, Text.isBlank c = true) :
    plain.kept cs = [] ↔ ∀ c ∈ cs, Token.isGap c = true := by
  rw [kept_blanks h, List.filter_eq_nil_iff]
  simp

end Scan

namespace Token

/-- The text that is put in front of words is put in front of their characters. -/
theorem flatten_extend (cs : List Char) (ws : List (List Char)) :
    (extend cs ws).flatten = cs ++ ws.flatten := by
  cases ws with
  | nil => simp
  | cons w ws => simp

/-- Reading a character follows the scanner: the reader goes on in the state that the scanner comes to, and
what the character brings is put in front of the words. -/
def Follows (m : Mode) (c : Char) : Prop :=
  ∃ (m' : Mode) (g : List (List Char) → List (List Char)), m'.quoting = m.quoting.step c ∧
    (∀ ws, (g ws).flatten = m.quoting.keeps c ++ ws.flatten) ∧
    ∀ cs, scan m (c :: cs) = (scan m' cs).map g

section

variable {m n : Mode} {c : Char}

/-- A character that is dropped follows the scanner. -/
theorem Follows.dropped (hstep : n.quoting = m.quoting.step c) (hkeeps : m.quoting.keeps c = [])
    (hscan : ∀ cs, scan m (c :: cs) = scan n cs) : Follows m c := by
  refine ⟨n, id, hstep, fun ws => ?_, fun cs => ?_⟩
  · rw [hkeeps]
    rfl
  · rw [hscan]
    exact (congrFun Except.map_id _).symm

/-- A character that is taken into the word, as it is or with what was held back, follows the scanner. -/
theorem Follows.taken {t : List Char} (hstep : n.quoting = m.quoting.step c)
    (hkeeps : m.quoting.keeps c = t)
    (hscan : ∀ cs, scan m (c :: cs) = (scan n cs).map (extend t)) : Follows m c :=
  ⟨n, extend t, hstep, fun ws => by rw [flatten_extend, hkeeps], hscan⟩

/-- A step outside quotes by a character that is no gap. -/
theorem follows_outside (hm : m.quoting = .plain) (hgap : ¬ isGap c = true) : Follows m c := by
  have hscan (cs : List Char) : scan m (c :: cs) =
      if c = '\\' then scan .escape cs
      else if c = '\'' then scan .single cs
      else if c = '"' then scan .double cs
      else (scan .word cs).map (extend [c]) := by
    cases m with
    | between => rw [scan, if_neg hgap]
    | word => rw [scan, if_neg hgap]
    | _ => exact absurd hm (by decide)
  -- A backslash and quotes are no part of a word; any other character is.
  by_cases hslash : c = '\\'
  · refine .dropped (n := .escape) ?_ ?_ fun cs => by rw [hscan, if_pos hslash]
    · rw [hm]
      simp [Scan.step, hslash, Mode.quoting]
    · simp [hm, Scan.keeps, hslash]
  by_cases hsingle : c = '\''
  · refine .dropped (n := .single) ?_ ?_ fun cs => by rw [hscan, if_neg hslash, if_pos hsingle]
    · rw [hm]
      simp [Scan.step, hsingle, Mode.quoting]
    · simp [hm, Scan.keeps, hsingle]
  by_cases hdouble : c = '"'
  · refine .dropped (n := .double) ?_ ?_ fun cs => by
      rw [hscan, if_neg hslash, if_neg hsingle, if_pos hdouble]
    · rw [hm]
      simp [Scan.step, hdouble, Mode.quoting]
    · simp [hm, Scan.keeps, hdouble]
  · refine .taken (n := .word) ?_ ?_ fun cs => by
      rw [hscan, if_neg hslash, if_neg hsingle, if_neg hdouble]
    · rw [hm]
      simp [Scan.step, hslash, hsingle, hdouble, Mode.quoting]
    · simp [hm, Scan.keeps, hgap, hslash, hsingle, hdouble]

end

/-- **One step of the reader** is a step of the scanner, and puts what the character brings in front of
the words. -/
theorem follows (m : Mode) (c : Char) : Follows m c := by
  have hstep_gap (hgap : isGap c = true) : Scan.plain.step c = .plain ∧ Scan.plain.keeps c = [] :=
    ⟨(Scan.step_blank (isBlank_of_isGap hgap)).1, by simp [Scan.keeps, hgap]⟩
  -- One case for each mode of the reader, which knows what the scanner knows and whether a word is open.
  cases m with
  | between =>
    by_cases hgap : isGap c = true
    · obtain ⟨hstep, hkeeps⟩ := hstep_gap hgap
      exact .dropped (n := .between) hstep.symm hkeeps fun cs => by rw [scan, if_pos hgap]
    · exact follows_outside rfl hgap
  | word =>
    by_cases hgap : isGap c = true
    · -- The word ends here.
      obtain ⟨hstep, hkeeps⟩ := hstep_gap hgap
      refine ⟨.between, ([] :: ·), hstep.symm, fun ws => ?_, fun cs => by rw [scan, if_pos hgap]⟩
      rw [Mode.quoting, hkeeps]
      rfl
    · exact follows_outside rfl hgap
  | single =>
    by_cases hquote : c = '\''
    · refine .dropped (n := .word) ?_ ?_ fun cs => by rw [scan, if_pos hquote]
      · simp [Scan.step, hquote, Mode.quoting]
      · simp [Scan.keeps, hquote, Mode.quoting]
    · refine .taken (n := .single) ?_ ?_ fun cs => by rw [scan, if_neg hquote]
      · simp [Scan.step, hquote, Mode.quoting]
      · simp [Scan.keeps, hquote, Mode.quoting]
  | double =>
    by_cases hquote : c = '"'
    · refine .dropped (n := .word) ?_ ?_ fun cs => by rw [scan, if_pos hquote]
      · simp [Scan.step, hquote, Mode.quoting]
      · simp [Scan.keeps, hquote, Mode.quoting]
    by_cases hslash : c = '\\'
    · refine .dropped (n := .doubleEscape) ?_ ?_ fun cs => by rw [scan, if_neg hquote, if_pos hslash]
      · simp [Scan.step, hslash, Mode.quoting]
      · simp [Scan.keeps, hslash, Mode.quoting]
    · refine .taken (n := .double) ?_ ?_ fun cs => by rw [scan, if_neg hquote, if_neg hslash]
      · simp [Scan.step, hquote, hslash, Mode.quoting]
      · simp [Scan.keeps, hquote, hslash, Mode.quoting]
  | escape => exact .taken (n := .word) (t := [c]) rfl rfl fun cs => by rw [scan]
  | doubleEscape =>
    by_cases hprotected : c = '"' ∨ c = '\\'
    · refine .taken (n := .double) rfl ?_ fun cs => by rw [scan, if_pos hprotected]
      rw [Mode.quoting, Scan.keeps, if_pos hprotected]
    · refine .taken (n := .double) rfl ?_ fun cs => by rw [scan, if_neg hprotected]
      rw [Mode.quoting, Scan.keeps, if_neg hprotected]

/-- The words of a text, put together, are what the text brings into them. -/
theorem flatten_of_scan {m : Mode} {cs : List Char} {ws : List (List Char)}
    (h : scan m cs = .ok ws) : ws.flatten = m.quoting.kept cs := by
  induction cs generalizing m ws with
  | nil =>
    cases m with
    | between | word =>
      cases h
      rfl
    | _ => exact nomatch h
  | cons c cs ih =>
    obtain ⟨m', g, hquoting, hg, hscan⟩ := follows m c
    rw [hscan] at h
    cases hrest : scan m' cs with
    | error f =>
      rw [hrest] at h
      exact nomatch h
    | ok vs =>
      rw [hrest] at h
      cases h
      rw [hg, ih hrest, hquoting, Scan.kept_cons]

/-- Gaps in front of a text add nothing to its words. -/
theorem scan_gaps_append {gs : List Char} (h : ∀ c ∈ gs, isGap c = true) (cs : List Char) :
    scan .between (gs ++ cs) = scan .between cs := by
  induction gs with
  | nil => rfl
  | cons g gs ih =>
    obtain ⟨hg, hgs⟩ := List.forall_mem_cons.mp h
    rw [List.cons_append, scan, if_pos hg, ih hgs]

/-- Gaps outside quotes behind a text add nothing to its words. -/
theorem scan_append_gaps {m : Mode} {cs gs : List Char} (hend : m.quoting.after cs = .plain)
    (h : ∀ c ∈ gs, isGap c = true) : scan m (cs ++ gs) = scan m cs := by
  induction cs generalizing m with
  | nil =>
    have hgaps {gs : List Char} (h : ∀ c ∈ gs, isGap c = true) : scan .between gs = .ok [] := by
      rw [← List.append_nil gs, scan_gaps_append h, scan]
    cases m with
    | between => exact hgaps h
    | word =>
      cases gs with
      | nil => rfl
      | cons g gs =>
        obtain ⟨hg, hgs⟩ := List.forall_mem_cons.mp h
        show scan .word (g :: gs) = .ok [[]]
        rw [scan, if_pos hg, hgaps hgs]
        rfl
    | _ => exact absurd hend (by decide)
  | cons c cs ih =>
    obtain ⟨m', g, hquoting, -, hscan⟩ := follows m c
    rw [Scan.after_cons, ← hquoting] at hend
    rw [List.cons_append, hscan, hscan, ih hend]

end Token

/-! ## Trimming a piece -/

/-- Trimming takes nothing from a text but gaps, and no gap that a backslash protects. -/
structure Quoted.Spared (cs : List Char) : Prop where
  /-- In front there are only gaps. -/
  leading : ∀ c ∈ Text.leading cs, Token.isGap c = true
  /-- At the end there are only gaps. -/
  trailing : ∀ c ∈ Text.trailing cs, Token.isGap c = true
  /-- What is left does not end in a backslash that is outside quotes and not itself escaped. -/
  last : ¬ Quoted.EndsBare (Text.trim cs)

namespace Token

/-- A text that has tokens ends outside quotes. -/
theorem after_of_ofChars {cs : List Char} {ws : List (List Char)} (h : ofChars cs = .ok ws) :
    Scan.plain.after cs = .plain := by
  have hfault : fault? (ofChars cs) = (Scan.plain.after cs).fault? := fault?_scan .between cs
  rw [h] at hfault
  cases hafter : Scan.plain.after cs <;> simp_all [fault?, Scan.fault?]

/-- **A trimmed text has the tokens of the text** exactly if trimming takes nothing that matters. -/
theorem ofChars_trim_iff {cs : List Char} {ws : List (List Char)} (h : ofChars cs = .ok ws) :
    ofChars (Text.trim cs) = .ok ws ↔ Quoted.Spared cs := by
  have hleading : ∀ c ∈ Text.leading cs, Text.isBlank c = true := fun c => Text.isBlank_of_mem_leading
  have htrailing : ∀ c ∈ Text.trailing cs, Text.isBlank c = true :=
    fun c => Text.isBlank_of_mem_trailing
  have hcs := Text.leading_trim_trailing cs
  constructor
  · intro htrim
    have hplain := after_of_ofChars htrim
    -- The words are the same, so what was taken brings nothing into them.
    have hkept : Scan.plain.kept (Text.leading cs) ++ (Scan.plain.kept (Text.trim cs)
        ++ Scan.plain.kept (Text.trailing cs)) = Scan.plain.kept (Text.trim cs) := by
      have hall := (flatten_of_scan h).symm.trans (flatten_of_scan htrim)
      rw [← hcs] at hall
      rwa [Mode.quoting, Scan.kept_append, (Scan.after_blanks hleading).1, Scan.kept_append, hplain,
        hcs] at hall
    have hlengths := congrArg List.length hkept
    rw [List.length_append, List.length_append] at hlengths
    refine ⟨?_, ?_, ?_⟩
    · exact (Scan.kept_blanks_eq_nil_iff hleading).mp (List.eq_nil_of_length_eq_zero (by omega))
    · exact (Scan.kept_blanks_eq_nil_iff htrailing).mp (List.eq_nil_of_length_eq_zero (by omega))
    · rw [← Scan.after_eq_escaped_iff, hplain]
      decide
  · rintro ⟨hfront, hback, hlast⟩
    have hopen : (Scan.plain.after (Text.trim cs)).isOpen = false := by
      apply Scan.isOpen_after_trim
      rw [after_of_ofChars h]
      rfl
    have hplain : Mode.between.quoting.after (Text.trim cs) = .plain := by
      rw [← Scan.after_eq_escaped_iff] at hlast
      show Scan.plain.after (Text.trim cs) = .plain
      cases hafter : Scan.plain.after (Text.trim cs) <;> simp_all [Scan.isOpen]
    rw [← hcs, ofChars, scan_gaps_append hfront, scan_append_gaps hplain hback] at h
    exact h

/-- A no-break space is no gap, but trimming takes it. -/
example : ofChars "x\u00a0".toList = .ok ["x\u00a0".toList] ∧
    Text.trim "x\u00a0".toList = "x".toList := by
  decide

end Token

/-! ## Trimming the pieces of a line -/

namespace Line

/-- A segment that is not marked for the host is rejected exactly if it ends in a bare backslash. -/
theorem exists_rejected_iff {line : List Char} {segments : List (List Char)}
    (h : segments? line = some segments) {s : List Char} (hs : s ∈ segments) :
    (∃ f, Rejected s f) ↔ s.head? ≠ some '!' ∧ Quoted.EndsBare s := by
  obtain ⟨hquote, hescape⟩ := Token.fault?_ofChars (isOpen_of_mem_segments h hs)
  rw [← hescape]
  constructor
  · rintro ⟨f, hmark, hf⟩
    refine ⟨hmark, ?_⟩
    cases f with
    | openQuote => exact absurd (Token.fault?_eq_some_iff.mpr hf) hquote
    | danglingEscape => exact Token.fault?_eq_some_iff.mpr hf
  · rintro ⟨hmark, hf⟩
    exact ⟨_, hmark, Token.fault?_eq_some_iff.mp hf⟩

/-- **The pieces of a line and its segments.** The segments of a line are its trimmed pieces, without
the blank ones. A piece that has tokens has those of its segment exactly if trimming takes only gaps from
it, none of them behind a backslash. The line is read without a fault exactly if no segment that is read
for tokens ends in a bare backslash. -/
theorem tokens_of_pieces {line : List Char} {segments : List (List Char)}
    (h : segments? line = some segments) :
    ((rawPieces .plain line).map Text.trim).filter (fun s => !s.isEmpty) = segments ∧
      (∀ r ∈ rawPieces .plain line, ∀ ws, Token.ofChars r = .ok ws →
        (Token.ofChars (Text.trim r) = .ok ws ↔ Quoted.Spared r)) ∧
      ∀ p : String → Bool, (∃ cs, Id.run (read (fun n => pure (p n)) line) = .ok cs) ↔
        ∀ s ∈ segments, s.head? ≠ some '!' → ¬ Quoted.EndsBare s := by
  refine ⟨(segments?_eq_some_iff.mp h).2, fun r _ ws hws => Token.ofChars_trim_iff hws, fun p => ?_⟩
  obtain ⟨f, hf, hread⟩ | ⟨hnone, ss, found, hss, -, hread⟩ := read_cases p line
  · -- A line with a fault has a segment that is rejected.
    obtain ⟨hno, -⟩ | ⟨ss, hss, s, hs, hrejected⟩ := hf
    · rw [hno] at h
      exact nomatch h
    · rw [h] at hss
      cases hss
      obtain ⟨hmark, hbare⟩ := (exists_rejected_iff h hs).mp ⟨f, hrejected⟩
      constructor
      · rintro ⟨cs, hcs⟩
        rw [hread] at hcs
        exact nomatch hcs
      · exact fun hall => absurd hbare (hall s hs hmark)
  · refine ⟨fun _ s hs hmark hbare => ?_, fun _ => ⟨_, hread⟩⟩
    obtain ⟨f, hf⟩ := (exists_rejected_iff h hs).mpr ⟨hmark, hbare⟩
    exact hnone f (.inr ⟨segments, h, s, hs, hf⟩)

/-- The tab behind `b` is taken without loss, the blank behind the backslash is not. -/
theorem tokens_of_pieces_escaped_blank :
    segments? "a\\ ;b\t".toList = some ["a\\".toList, "b".toList] ∧
      (Token.ofChars "b".toList = .ok ["b".toList] ↔ Quoted.Spared "b\t".toList) ∧
      (Token.ofChars "a\\".toList = .ok ["a ".toList] ↔ Quoted.Spared "a\\ ".toList) ∧
      ((∃ cs, Id.run (read (fun _ => pure true) "a\\ ;b\t".toList) = .ok cs) ↔
        ∀ s ∈ ["a\\".toList, "b".toList], s.head? ≠ some '!' → ¬ Quoted.EndsBare s) := by
  have hline : segments? "a\\ ;b\t".toList = some ["a\\".toList, "b".toList] := by decide
  obtain ⟨-, hpieces, hread⟩ := tokens_of_pieces hline
  exact ⟨hline, hpieces "b\t".toList (by decide) ["b".toList] (by decide),
    hpieces "a\\ ".toList (by decide) ["a ".toList] (by decide), hread fun _ => true⟩

/-- A line of one piece that has tokens, while its segment has none and the line no commands. -/
theorem trim_takes_escaped_blank :
    segments? "greet a\\ ".toList = some ["greet a\\".toList] ∧
      rawPieces .plain "greet a\\ ".toList = ["greet a\\ ".toList] ∧
      Token.ofChars "greet a\\ ".toList = .ok ["greet".toList, "a ".toList] ∧
      Token.ofChars "greet a\\".toList = .error .danglingEscape ∧
      Id.run (read (fun _ => pure true) "greet a\\ ".toList) = .error .danglingEscape := by
  decide

end Line

end CommandShell
