import CommandShell.Proofs.Command.Trimming

/-! # Commands read back from their text

What is recorded of a command is its text, and the prompt offers it again. A segment is a fixpoint of the
scanner: as a line of its own it is its only segment (`Line.segments?_of_mem`), and so it means what it
meant before. The text of an internal command whose words need no quotes is such a segment as well
(`Line.means_text`). `Session.replays_of_means` puts both together. -/

namespace CommandShell

/-! ## Bare words -/

namespace Token

/-- A character that stands for itself wherever it is read, and ends no word and no command. -/
def isBare (c : Char) : Bool :=
  !Text.isBlank c && c != '\'' && c != '"' && c != '\\' && c != Line.separator

/-- A word that can be typed as it stands. -/
structure Bare (cs : List Char) : Prop where
  /-- There is something to type. -/
  ne_nil : cs ≠ []
  /-- Every character stands for itself. -/
  all : ∀ c ∈ cs, isBare c = true

/-- A character is bare if it is no blank, no mark of quoting and no separator. -/
theorem isBare_iff {c : Char} : isBare c = true ↔
    Text.isBlank c = false ∧ c ≠ '\'' ∧ c ≠ '"' ∧ c ≠ '\\' ∧ c ≠ Line.separator := by
  simp [isBare, and_assoc]

/-- A bare character is read as itself, between words and within one. -/
theorem scan_bare {m : Mode} (hm : m = .between ∨ m = .word) {c : Char} (hc : isBare c = true)
    (cs : List Char) : scan m (c :: cs) = (scan .word cs).map (extend [c]) := by
  obtain ⟨hblank, hsingle, hdouble, hslash, -⟩ := isBare_iff.mp hc
  have hgap : ¬ isGap c = true := by
    intro hgap
    rw [isBlank_of_isGap hgap] at hblank
    exact nomatch hblank
  rcases hm with rfl | rfl
  · rw [scan, if_neg hgap, if_neg hslash, if_neg hsingle, if_neg hdouble]
  · rw [scan, if_neg hgap, if_neg hslash, if_neg hsingle, if_neg hdouble]

/-- A bare word goes on with the word that follows it. -/
theorem scan_word_bare {w : List Char} (hw : ∀ c ∈ w, isBare c = true) (cs : List Char) :
    scan .word (w ++ cs) = (scan .word cs).map (extend w) := by
  induction w with
  | nil => rw [List.nil_append, map_extend_nil (by decide)]
  | cons c w ih =>
    obtain ⟨hc, hw⟩ := List.forall_mem_cons.mp hw
    rw [List.cons_append, scan_bare (.inr rfl) hc, ih hw, map_extend_extend, List.singleton_append]

/-- A bare word between words starts a word. -/
theorem scan_between_bare {w : List Char} (hw : Bare w) (cs : List Char) :
    scan .between (w ++ cs) = (scan .word cs).map (extend w) := by
  obtain ⟨c, w, rfl⟩ := List.exists_cons_of_ne_nil hw.ne_nil
  obtain ⟨hc, hall⟩ := List.forall_mem_cons.mp hw.all
  rw [List.cons_append, scan_bare (.inl rfl) hc, scan_word_bare hall, map_extend_extend,
    List.singleton_append]

/-- **Bare words with blanks between them** are read back as these words. -/
theorem ofChars_intercalate {ws : List (List Char)} (h : ∀ w ∈ ws, Bare w) :
    ofChars (List.intercalate [' '] ws) = .ok ws := by
  rw [ofChars]
  induction ws with
  | nil => rfl
  | cons w ws ih =>
    obtain ⟨hw, hws⟩ := List.forall_mem_cons.mp h
    cases ws with
    | nil =>
      have hread := scan_between_bare hw []
      rw [List.append_nil] at hread
      rw [List.intercalate_singleton, hread]
      simp [scan, Except.map]
    | cons v vs =>
      rw [List.intercalate_cons_cons, List.append_assoc, List.singleton_append,
        scan_between_bare hw, scan_word_blank, ih hws]
      simp [Except.map]

end Token

/-! ## Closed segments -/

namespace Line

open Token

/-- Every piece is unbroken: the first in the state in which reading starts, the others from outside
quotes. -/
theorem unbroken_of_rawPieces (q : Scan) (cs : List Char) :
    ∃ first rest, rawPieces q cs = first :: rest ∧ Unbroken q first ∧
      ∀ piece ∈ rest, Unbroken .plain piece := by
  induction cs generalizing q with
  | nil => exact ⟨[], [], rfl, unbroken_nil q, by simp⟩
  | cons c cs ih =>
    by_cases hc : q = .plain ∧ c = separator
    · obtain ⟨rfl, rfl⟩ := hc
      obtain ⟨first, rest, hpieces, hfirst, hrest⟩ := ih .plain
      refine ⟨[], first :: rest, ?_, unbroken_nil _, List.forall_mem_cons.mpr ⟨hfirst, hrest⟩⟩
      rw [rawPieces_separator, hpieces]
    · obtain ⟨first, rest, hpieces, hfirst, hrest⟩ := ih (q.step c)
      refine ⟨c :: first, rest, ?_, (unbroken_cons q c first).mpr ⟨hc, hfirst⟩, hrest⟩
      rw [rawPieces_cons hc, hpieces, extend_cons, List.singleton_append]

/-- Trimming an unbroken text leaves it unbroken. -/
theorem unbroken_trim {cs : List Char} (h : Unbroken .plain cs) : Unbroken .plain (Text.trim cs) := by
  have hleading := Scan.after_blanks fun c (hc : c ∈ Text.leading cs) => Text.isBlank_of_mem_leading hc
  rw [← Text.leading_trim_trailing cs, unbroken_append, hleading.1, unbroken_append] at h
  exact h.2.1

/-- A segment has no separator that counts, even when it is read by itself. -/
theorem unbroken_of_mem_segments {line : List Char} {segments : List (List Char)}
    (h : segments? line = some segments) {s : List Char} (hs : s ∈ segments) : Unbroken .plain s := by
  obtain ⟨piece, hpiece, rfl, -⟩ := mem_segments h hs
  apply unbroken_trim
  obtain ⟨first, rest, hpieces, hfirst, hrest⟩ := unbroken_of_rawPieces .plain line
  rw [hpieces] at hpiece
  exact List.forall_mem_cons.mpr ⟨hfirst, hrest⟩ piece hpiece

/-- A closed, trimmed text that is not empty is the only segment of itself. -/
theorem segments?_self {s : List Char} (hclosed : Closed s) (htrim : Text.trim s = s) (hne : s ≠ []) :
    segments? s = some [s] := by
  have h : segments? (List.intercalate [separator] [s]) = some [s] :=
    segments?_intercalate (by simpa using hclosed) (by simpa using htrim) (by simpa using hne)
  rwa [List.intercalate_singleton] at h

/-- **A segment that has tokens is the only segment of itself.** -/
theorem segments?_of_mem {line : List Char} {segments : List (List Char)}
    (h : segments? line = some segments) {s : List Char} (hs : s ∈ segments) {ws : List (List Char)}
    (htokens : ofChars s = .ok ws) : segments? s = some [s] := by
  obtain ⟨htrim, hne⟩ := trimmed_of_mem_segments h hs
  exact segments?_self ⟨unbroken_of_mem_segments h hs, after_of_ofChars htokens⟩ htrim hne

/-! ## Bare words as a segment -/

/-- A bare word is not cut, and leaves no quote open. -/
theorem closed_bare {w : List Char} (hw : ∀ c ∈ w, isBare c = true) : Closed w := by
  induction w with
  | nil => exact ⟨unbroken_nil _, rfl⟩
  | cons c w ih =>
    obtain ⟨hc, hw⟩ := List.forall_mem_cons.mp hw
    obtain ⟨-, hsingle, hdouble, hslash, hseparator⟩ := isBare_iff.mp hc
    have hstep : Scan.plain.step c = .plain := by simp [Scan.step, hslash, hsingle, hdouble]
    obtain ⟨hunbroken, hafter⟩ := ih hw
    refine ⟨(unbroken_cons _ c w).mpr ⟨fun h => hseparator h.2, ?_⟩, ?_⟩
    · rw [hstep]
      exact hunbroken
    · rw [Scan.after_cons, hstep]
      exact hafter

/-- Bare words with blanks between them are not cut, and leave no quote open. -/
theorem closed_intercalate {ws : List (List Char)} (h : ∀ w ∈ ws, Bare w) :
    Closed (List.intercalate [' '] ws) := by
  have hblank : Closed [' '] := ⟨by simp [unbroken_cons, separator], rfl⟩
  induction ws with
  | nil => exact ⟨unbroken_nil _, rfl⟩
  | cons w ws ih =>
    obtain ⟨hw, hws⟩ := List.forall_mem_cons.mp h
    cases ws with
    | nil =>
      rw [List.intercalate_singleton]
      exact closed_bare hw.all
    | cons v vs =>
      rw [List.intercalate_cons_cons]
      exact closed_append (closed_append (closed_bare hw.all) hblank) (ih hws)

/-- The last of some texts ends the texts joined. -/
theorem exists_intercalate_eq_append (sep : List Char) {ws : List (List Char)} (hne : ws ≠ []) :
    ∃ front, ∃ w ∈ ws, List.intercalate sep ws = front ++ w := by
  induction ws with
  | nil => exact absurd rfl hne
  | cons w ws ih =>
    cases ws with
    | nil => exact ⟨[], w, List.mem_cons_self, List.intercalate_singleton⟩
    | cons v vs =>
      obtain ⟨front, u, hu, heq⟩ := ih (List.cons_ne_nil v vs)
      refine ⟨w ++ sep ++ front, u, List.mem_cons_of_mem w hu, ?_⟩
      rw [List.intercalate_cons_cons, heq, List.append_assoc (w ++ sep)]

/-- Bare words with blanks between them start and end with a character that is not blank. -/
theorem trim_intercalate {ws : List (List Char)} (hne : ws ≠ []) (h : ∀ w ∈ ws, Bare w) :
    Text.trim (List.intercalate [' '] ws) = List.intercalate [' '] ws := by
  have hstart : Text.trimStart (List.intercalate [' '] ws) = List.intercalate [' '] ws := by
    obtain ⟨w, ws, rfl⟩ := List.exists_cons_of_ne_nil hne
    obtain ⟨hnil, hall⟩ := h w List.mem_cons_self
    obtain ⟨c, w, rfl⟩ := List.exists_cons_of_ne_nil hnil
    obtain ⟨hc, -⟩ := isBare_iff.mp (hall c List.mem_cons_self)
    obtain ⟨rest, hrest⟩ : ∃ rest, List.intercalate [' '] ((c :: w) :: ws) = c :: rest := by
      cases ws with
      | nil => exact ⟨w, List.intercalate_singleton⟩
      | cons v vs => exact ⟨_, List.intercalate_cons_cons⟩
    rw [hrest, Text.trimStart_cons, if_neg (by simp [hc])]
  obtain ⟨front, w, hw, hlast⟩ := exists_intercalate_eq_append [' '] hne
  obtain ⟨hnil, hall⟩ := h w hw
  obtain ⟨init, c, rfl⟩ := (List.eq_nil_or_concat' w).resolve_left hnil
  obtain ⟨hc, -⟩ := isBare_iff.mp (hall c (by simp))
  rw [Text.trim, hstart, hlast, ← List.append_assoc, Text.trimEnd_append_singleton, if_neg (by simp [hc])]

end Line

/-! ## The text of a command -/

/-- An internal command that can be written without quotes: every word of it is bare, the name carries no
mark for the host, and a reader that looks for parameters finds its parameters and no others. -/
structure Command.Plain (c : Command) (name : String) : Prop where
  /-- The command has this name. -/
  named : c.name = some name
  /-- It is not for the host. -/
  internal : c.system = none
  /-- Every word is bare. -/
  bare : ∀ word ∈ c.fields, Token.Bare word.toList
  /-- The name carries no mark for the host. -/
  unmarked : name.toList.head? ≠ some '!'
  /-- There is no empty list of values, and no value looks like a parameter. -/
  values : ∀ vs ∈ c.values, vs ≠ [] ∧ ∀ v ∈ vs, Argument.isParameter v = false
  /-- There is no empty list of parameters, and every parameter looks like one and ends none. -/
  parameters : ∀ ps ∈ c.parameters,
    ps ≠ [] ∧ ∀ p ∈ ps, Argument.isParameter p = true ∧ p ≠ Argument.endOfParameters

namespace Argument

/-- Values before parameters are told apart again. -/
theorem classify_append {vs ps : List String} (hvs : ∀ v ∈ vs, isParameter v = false)
    (hps : ∀ p ∈ ps, isParameter p = true ∧ p ≠ endOfParameters) :
    classify (vs ++ ps) = (vs, ps) := by
  have hend : isParameter endOfParameters = true := by decide
  have hparameters : classify ps = ([], ps) := by
    induction ps with
    | nil => rfl
    | cons p ps ih =>
      obtain ⟨⟨hp, hne⟩, hps⟩ := List.forall_mem_cons.mp hps
      rw [classify, if_neg hne, ih hps]
      simp [hp]
  induction vs with
  | nil => exact hparameters
  | cons v vs ih =>
    obtain ⟨hv, hvs⟩ := List.forall_mem_cons.mp hvs
    -- The bare `--` looks like a parameter, so no value is one.
    have hne : v ≠ endOfParameters := by
      rintro rfl
      rw [hend] at hv
      cases hv
    rw [List.cons_append, classify, if_neg hne, ih hvs]
    simp [hv]

end Argument

namespace Command

/-- An absent list of arguments, or one with members, is found again from its members. -/
theorem listed_getD {xs? : Option (List String)} (h : ∀ xs ∈ xs?, xs ≠ []) :
    listed (xs?.getD []) = xs? := by
  cases xs? with
  | none => rfl
  | some xs => simp [listed, h xs rfl]

/-- A plain command is the internal command of its own name and arguments. -/
theorem Plain.eq_internal {c : Command} {name : String} (h : c.Plain name) :
    c = Command.internal name (c.values.getD []) (c.parameters.getD []) := by
  obtain ⟨name?, values, parameters, system⟩ := c
  obtain ⟨rfl, rfl⟩ : name? = some name ∧ system = none := ⟨h.named, h.internal⟩
  rw [Command.internal, listed_getD fun vs hvs => (h.values vs hvs).1,
    listed_getD fun ps hps => (h.parameters ps hps).1]

/-- The characters of a command's text are those of its fields, with blanks between them. -/
theorem toList_text (c : Command) :
    c.text.toList = List.intercalate [' '] (c.fields.map String.toList) := by
  rw [text, String.toList_intercalate]
  rfl

/-- **The text of a plain command** is a single segment, and means this command wherever its name is
internal. -/
theorem Plain.means_text {c : Command} {name : String} (h : c.Plain name) {p : String → Bool}
    (hname : p name = true) : Line.segments? c.text.toList = some [c.text.toList] ∧
      Line.Means p c.text.toList (some c) := by
  have hbare : ∀ w ∈ c.fields.map String.toList, Token.Bare w := by
    intro w hw
    obtain ⟨word, hword, rfl⟩ := List.mem_map.mp hw
    exact h.bare word hword
  have hfields : c.fields = name :: (c.values.getD [] ++ c.parameters.getD []) := by
    conv_lhs => rw [h.eq_internal, fields_internal]
  obtain ⟨first, rest, hfirst⟩ : ∃ first rest, name.toList = first :: rest :=
    List.exists_cons_of_ne_nil (h.bare name (by rw [hfields]; exact List.mem_cons_self)).ne_nil
  -- The text starts as its first word does.
  have hhead : c.text.toList.head? = some first := by
    rw [toList_text, hfields, List.map_cons, hfirst]
    cases (c.values.getD [] ++ c.parameters.getD []).map String.toList with
    | nil => rfl
    | cons v vs =>
      rw [List.intercalate_cons_cons]
      rfl
  constructor
  · rw [toList_text]
    refine Line.segments?_self (Line.closed_intercalate hbare) (Line.trim_intercalate ?_ hbare) ?_
    · rw [hfields]
      exact List.cons_ne_nil _ _
    · rw [← toList_text]
      intro hnil
      rw [hnil] at hhead
      exact nomatch hhead
  · have hmark : c.text.toList.head? ≠ some '!' := by
      rw [hhead, ← List.head?_cons (l := rest), ← hfirst]
      exact h.unmarked
    have htokens := Token.ofChars_intercalate hbare
    rw [← toList_text, hfields, List.map_cons] at htokens
    have hmeans := Line.Means.internal (p := p) hmark htokens (by rwa [String.ofList_toList])
    have hwords (ws : List String) : (ws.map String.toList).map String.ofList = ws := by
      rw [List.map_map]
      exact (List.map_congr_left fun s _ => String.ofList_toList).trans (List.map_id ws)
    rw [hwords, String.ofList_toList, Argument.classify_append] at hmeans
    · rwa [← h.eq_internal] at hmeans
    · cases hvs : c.values with
      | none => simp
      | some vs => exact (h.values vs hvs).2
    · cases hps : c.parameters with
      | none => simp
      | some ps => exact (h.parameters ps hps).2

end Command

/-! ## Parsing a single segment -/

namespace Line

variable {p : String → Bool} {s : List Char}

/-- What a segment means is settled by the segment. -/
theorem Means.unique {a? b? : Option Command} (ha : Means p s a?) (hb : Means p s b?) : a? = b? := by
  -- The mark, the tokens and the answer of the predicate rule out every other case.
  cases ha with
  | nothing h =>
    cases hb with
    | nothing => rfl
    | marked h' =>
      obtain ⟨c, hc, hblank⟩ := h'
      rw [h c hc] at hblank
      exact nomatch hblank
    | forHost hmark | internal hmark => exact absurd rfl hmark
  | marked h =>
    cases hb with
    | nothing h' =>
      obtain ⟨c, hc, hblank⟩ := h
      rw [h' c hc] at hblank
      exact nomatch hblank
    | marked => rfl
    | forHost hmark | internal hmark => exact absurd rfl hmark
  | forHost hmark htokens hname =>
    cases hb with
    | nothing | marked => exact absurd rfl hmark
    | forHost => rfl
    | internal _ htokens' hname' =>
      rw [htokens] at htokens'
      cases htokens'
      rw [hname] at hname'
      exact nomatch hname'
  | internal hmark htokens hname =>
    cases hb with
    | nothing | marked => exact absurd rfl hmark
    | forHost _ htokens' hname' =>
      rw [htokens] at htokens'
      cases htokens'
      rw [hname] at hname'
      exact nomatch hname'
    | internal _ htokens' _ =>
      rw [htokens] at htokens'
      cases htokens'
      rfl

/-- A segment that means something is not rejected. -/
theorem Means.not_rejected {c? : Option Command} (h : Means p s c?) (f : Token.Fault) :
    ¬ Rejected s f := by
  rintro ⟨hmark, hf⟩
  cases h with
  | nothing | marked => exact hmark rfl
  | forHost _ htokens | internal _ htokens =>
    rw [htokens] at hf
    exact nomatch hf

/-- A line that is its own only segment is read as what it means. -/
theorem read_self {c : Command} (hself : segments? s = some [s]) (h : Means p s (some c)) :
    Id.run (read (fun n => pure (p n)) s) = .ok [c] := by
  obtain ⟨f, hf, -⟩ | ⟨-, segments, found, hsegments, hfound, hread⟩ := read_cases p s
  · obtain ⟨hno, -⟩ | ⟨segments, hsegments, t, ht, hrejected⟩ := hf
    · rw [hself] at hno
      exact nomatch hno
    · rw [hself] at hsegments
      cases hsegments
      rw [List.mem_singleton.mp ht] at hrejected
      exact absurd hrejected (h.not_rejected f)
  · rw [hself] at hsegments
    cases hsegments
    obtain ⟨c?, rest, hmeans, hrest, rfl⟩ := List.forall₂_cons_left_iff.mp hfound
    rw [List.forall₂_nil_left_iff.mp hrest, ← h.unique hmeans] at hread
    exact hread

end Line

namespace Session

/-- Where `p` tells the internal names, a text is parsed to one command, in every world, and parsing only
reports how many it found. -/
def Replays (p : String → Bool) (text : String) (c : Command) : Prop :=
  ∀ w : World, (parseWith (fun n => pure (p n)) text).run w = .ok [c] (w.emitted
    (w.reports .debug .parser
      ("Parsed " ++ Text.quoted text ++ " into " ++ toString [c].length ++ " command(s)")))

/-- A text that is its own only segment and means a command replays as this command. -/
theorem replays_of_means {p : String → Bool} {text : String} {c : Command}
    (hself : Line.segments? text.toList = some [text.toList]) (h : Line.Means p text.toList (some c)) :
    Replays p text c := by
  intro w
  have hask (n : String) : (pure (p n) : Shell Bool).run w = .ok (p n) w := rfl
  rw [run_parseWith_of_answers hask text, Line.read_self hself h]

/-- **Recorded commands replay.** The text of a plain command is parsed to this command by every predicate
that accepts its name. And of every line, whatever predicate tells the internal names, each command for
the host that comes from a segment without a mark is parsed again from its text to itself alone. -/
theorem recorded_commands_replay (p : String → Bool) :
    (∀ (c : Command) (name : String), c.Plain name → p name = true → Replays p c.text c) ∧
      ∀ (line : String) (w : World), ∃ found v,
        (parseWith (fun n => pure (p n)) line).run w = .ok found.reduceOption v ∧
        ((∃ f, Line.Unreadable line.toList f) ∧ found = [] ∨
          ∃ segments, Line.segments? line.toList = some segments ∧
            List.Forall₂ (fun s c? => Line.Means p s c? ∧
              (s.head? ≠ some '!' → ∀ c ∈ c?, ∀ text ∈ c.system, Replays p text c)) segments found) := by
  constructor
  · intro c name hplain hname
    obtain ⟨hself, hmeans⟩ := hplain.means_text hname
    exact replays_of_means hself hmeans
  · intro line w
    obtain ⟨f, hf, hrun⟩ | ⟨-, segments, found, hsegments, hfound, hrun, -⟩ :=
      parse_under_predicate p line w
    · exact ⟨[], _, hrun, .inl ⟨⟨f, hf⟩, rfl⟩⟩
    · refine ⟨found, _, hrun, .inr ⟨segments, hsegments, ?_⟩⟩
      have hmem := (List.forall₂_and_left segments found).mpr ⟨fun s hs => hs, hfound⟩
      refine hmem.imp fun s c? hs => ?_
      obtain ⟨hs, hmeans⟩ := hs
      refine ⟨hmeans, fun hmark c hc text htext => ?_⟩
      -- Without a mark only a whole segment is for the host.
      cases hmeans with
      | nothing | marked => exact absurd rfl hmark
      | internal =>
        cases hc
        exact nomatch htext
      | forHost _ htokens hname =>
        cases hc
        cases htext
        have hself := Line.segments?_of_mem hsegments hs htokens
        refine replays_of_means ?_ ?_
        · rwa [String.toList_ofList]
        · rw [String.toList_ofList]
          exact .forHost hmark htokens hname

/-- A command with a value and a parameter, and a quoted command for the host in front of another one. -/
theorem recorded_commands_replay_greet :
    Replays (· == "greet") "greet Ada --loud" (.internal "greet" ["Ada"] ["--loud"]) ∧
      Replays (· == "greet") "ls \"a;b\"" (.ofSystem "ls \"a;b\"") := by
  obtain ⟨hinternal, hsystem⟩ := recorded_commands_replay (· == "greet")
  constructor
  · refine hinternal (.internal "greet" ["Ada"] ["--loud"]) "greet" ?_ rfl
    refine ⟨rfl, rfl, ?_, by decide, ?_, ?_⟩
    · intro word hword
      have hword : word ∈ ["greet", "Ada", "--loud"] := hword
      simp only [List.mem_cons, List.not_mem_nil, or_false] at hword
      rcases hword with rfl | rfl | rfl <;> exact ⟨by decide, List.all_eq_true.mp (by decide)⟩
    · rintro vs ⟨⟩
      exact ⟨by decide, by decide⟩
    · rintro ps ⟨⟩
      exact ⟨by decide, by decide⟩
  · let segment := "ls \"a;b\"".toList
    have hline : Line.segments? "ls \"a;b\" ; greet".toList = some [segment, "greet".toList] := by decide
    have htokens : Token.ofChars segment = .ok ["ls".toList, "a;b".toList] := by decide
    have hmeans : Line.Means (· == "greet") segment (some (.ofSystem "ls \"a;b\"")) :=
      .forHost (by decide) htokens (by decide)
    obtain ⟨found, v, -, ⟨⟨f, hf⟩, -⟩ | ⟨segments, hsegments, hall⟩⟩ :=
      hsystem "ls \"a;b\" ; greet" default
    · obtain ⟨hnone, -⟩ | ⟨segments, hsegments, s, hs, -, hf⟩ := hf
      · rw [hline] at hnone
        exact nomatch hnone
      · rw [hline] at hsegments
        cases hsegments
        have hall : ∀ s ∈ [segment, "greet".toList], Token.fault? (Token.ofChars s) = none := by decide
        have hs := hall s hs
        rw [hf] at hs
        exact nomatch hs
    · rw [hline] at hsegments
      cases hsegments
      obtain ⟨c?, rest, ⟨hc, hreplays⟩, -, rfl⟩ := List.forall₂_cons_left_iff.mp hall
      obtain rfl := hc.unique hmeans
      exact hreplays (by decide) _ rfl _ rfl

end Session

end CommandShell
