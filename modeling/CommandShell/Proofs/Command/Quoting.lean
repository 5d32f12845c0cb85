import CommandShell.Proofs.Command.Reading
import CommandShell.Proofs.Command.Segment

/-! # Typing any command

Every name and every argument can be typed: between single quotes all characters stand for
themselves, and a single quote is typed between double quotes. With a bare `--` behind the name every
argument is a value. `Line.typed` types a list of commands so, and `read_typed` says that reading the
line gives exactly these commands; `parse_typed` says it of a session without internal names. -/

namespace CommandShell

namespace Token

/-! ## Quoted tokens -/

/-- A character as it is typed between single quotes: a single quote ends the quotes, stands between
double quotes, and starts them again. -/
def quotedChar (c : Char) : List Char := if c = '\'' then ['\'', '"', '\'', '"', '\''] else [c]

/-- The characters of a token as they are typed between single quotes. -/
def quotedBody (t : List Char) : List Char := t.flatMap quotedChar

/-- A token as it is typed. -/
def quoted (t : List Char) : List Char := '\'' :: (quotedBody t ++ ['\''])

/-- The empty token has nothing between its quotes. -/
@[simp] theorem quotedBody_nil : quotedBody [] = [] := rfl

/-- A token is typed character by character. -/
theorem quotedBody_cons (c : Char) (t : List Char) :
    quotedBody (c :: t) = quotedChar c ++ quotedBody t := rfl

/-- A typed token starts with the quote that the reader of tokens enters by. -/
theorem quoted_append (t cs : List Char) : quoted t ++ cs = '\'' :: (quotedBody t ++ '\'' :: cs) := by
  simp [quoted]

/-- Putting a text in front of words leaves at least one word. -/
theorem extend_ne_nil (cs : List Char) (ws : List (List Char)) : extend cs ws ≠ [] := by
  cases ws <;> simp

/-- A reading whose words are extended never comes out without words. -/
theorem map_ne_nil {f : List (List Char) → List (List Char)} (hf : ∀ ws, f ws ≠ [])
    (r : Except Fault (List (List Char))) : r.map f ≠ .ok [] := by
  cases r with
  | error e => exact fun h => nomatch h
  | ok ws => exact fun h => hf ws (Except.ok.inj h)

/-- Once a word has begun, there is at least this word. -/
theorem scan_ne_nil {q : Mode} (hq : q ≠ .between) (cs : List Char) : scan q cs ≠ .ok [] := by
  have hext (ds : List Char) := map_ne_nil (extend_ne_nil ds)
  -- By induction on the text; each step adds to a word or hands the word on to the rest.
  induction cs generalizing q with
  | nil => cases q <;> simp [scan] at hq ⊢
  | cons c cs ih =>
    cases q with
    | between => exact absurd rfl hq
    | word =>
      rw [scan]
      split
      · exact map_ne_nil (fun ws => List.cons_ne_nil _ ws) _
      · split
        · exact ih (by decide)
        · split
          · exact ih (by decide)
          · split
            · exact ih (by decide)
            · exact hext _ _
    | single =>
      rw [scan]
      split
      · exact ih (by decide)
      · exact hext _ _
    | double =>
      rw [scan]
      split
      · exact ih (by decide)
      · split
        · exact ih (by decide)
        · exact hext _ _
    | escape =>
      rw [scan]
      exact hext _ _
    | doubleEscape =>
      rw [scan]
      split
      · exact hext _ _
      · exact hext _ _

/-- Putting nothing in front of a word that has begun changes nothing. -/
theorem map_extend_nil {q : Mode} (hq : q ≠ .between) (cs : List Char) :
    (scan q cs).map (extend []) = scan q cs := by
  cases hs : scan q cs with
  | error e => rfl
  | ok ws =>
    cases ws with
    | nil => exact absurd hs (scan_ne_nil hq cs)
    | cons w ws => rfl

/-- Two extensions of a reading, one after the other. -/
theorem map_extend_extend (cs ds : List Char) (r : Except Fault (List (List Char))) :
    (r.map (extend ds)).map (extend cs) = r.map (extend (cs ++ ds)) := by
  cases r with
  | error e => rfl
  | ok ws => exact congrArg Except.ok (extend_extend cs ds ws)

/-- A typed character is read back between single quotes. -/
theorem scan_quotedChar (c : Char) (cs : List Char) :
    scan .single (quotedChar c ++ cs) = (scan .single cs).map (extend [c]) := by
  unfold quotedChar
  split
  · rename_i hc
    subst hc
    rfl
  · rename_i hc
    rw [List.singleton_append, scan, if_neg hc]

/-- A typed body is read back up to its closing quote. -/
theorem scan_quotedBody (t cs : List Char) :
    scan .single (quotedBody t ++ '\'' :: cs) = (scan .word cs).map (extend t) := by
  induction t with
  | nil =>
    rw [quotedBody_nil, List.nil_append, scan, if_pos rfl, map_extend_nil (by decide)]
  | cons c t ih =>
    rw [quotedBody_cons, List.append_assoc, scan_quotedChar, ih, map_extend_extend,
      List.singleton_append]

/-- **A typed token is read back**, as the start of the word that it begins. -/
theorem scan_quoted (t cs : List Char) :
    scan .between (quoted t ++ cs) = (scan .word cs).map (extend t) := by
  rw [quoted_append, scan, if_neg (by decide), if_neg (by decide), if_pos rfl]
  exact scan_quotedBody t cs

/-- A blank ends a word. -/
theorem scan_word_blank (cs : List Char) :
    scan .word (' ' :: cs) = (scan .between cs).map ([] :: ·) := by
  rw [scan, if_pos (by decide)]

/-- Arguments as they are typed behind a name: each behind a blank. -/
def quotedArguments (args : List (List Char)) : List Char := args.flatMap fun a => ' ' :: quoted a

/-- Typed arguments are the first one behind a blank, then the others. -/
theorem quotedArguments_cons (a : List Char) (args : List (List Char)) :
    quotedArguments (a :: args) = ' ' :: (quoted a ++ quotedArguments args) := rfl

/-- Typed arguments are read back as words of their own. -/
theorem scan_quotedArguments (args : List (List Char)) :
    scan .word (quotedArguments args) = .ok ([] :: args) := by
  induction args with
  | nil => rfl
  | cons a args ih =>
    rw [quotedArguments_cons, scan_word_blank, scan_quoted, ih]
    simp [Except.map]

/-- A command as it is typed: its name, a bare `--`, and its arguments. -/
def quotedCommand (name : List Char) (args : List (List Char)) : List Char :=
  quoted name ++ ' ' :: '-' :: '-' :: quotedArguments args

/-- The tokens of a typed command are its name, the bare `--`, and its arguments. -/
theorem ofChars_quotedCommand (name : List Char) (args : List (List Char)) :
    ofChars (quotedCommand name args) = .ok (name :: ['-', '-'] :: args) := by
  -- The bare hyphens are plain characters of a word.
  have hdash (cs : List Char) (w : List Char) (ws : List (List Char))
      (h : scan .word cs = .ok (w :: ws)) :
      scan .between ('-' :: '-' :: cs) = .ok (('-' :: '-' :: w) :: ws) := by
    rw [scan, if_neg (by decide), if_neg (by decide), if_neg (by decide), if_neg (by decide), scan,
      if_neg (by decide), if_neg (by decide), if_neg (by decide), if_neg (by decide), h]
    rfl
  rw [ofChars, quotedCommand, scan_quoted, scan_word_blank,
    hdash _ _ _ (scan_quotedArguments args)]
  simp [Except.map]

end Token

/-! ## Typed lines -/

namespace Line

open Token

/-- A typed body leaves the scanner between single quotes and meets no separator that counts. -/
theorem after_quotedBody (t : List Char) :
    Unbroken .single (quotedBody t) ∧ Scan.single.after (quotedBody t) = .single := by
  induction t with
  | nil => exact ⟨trivial, rfl⟩
  | cons c t ih =>
    -- Each typed character, also the quote that is typed between double quotes, comes back.
    have hchar : Unbroken .single (quotedChar c) ∧ Scan.single.after (quotedChar c) = .single := by
      unfold quotedChar
      split
      · simp [unbroken_cons, Scan.step, separator]
      · rename_i hc
        simp [unbroken_cons, Scan.step, hc]
    rw [quotedBody_cons, unbroken_append, Scan.after_append, hchar.2]
    exact ⟨⟨hchar.1, ih.1⟩, ih.2⟩

/-- A typed token opens and closes its quotes and is not cut. -/
theorem closed_quoted (t : List Char) : Closed (quoted t) := by
  obtain ⟨hbody, hafter⟩ := after_quotedBody t
  constructor
  · rw [quoted, unbroken_cons, unbroken_append]
    refine ⟨by decide, hbody, ?_⟩
    rw [unbroken_cons]
    exact ⟨by rintro ⟨-, h⟩; exact absurd h (by decide), trivial⟩
  · rw [quoted, Scan.after_cons, Scan.after_append]
    show (Scan.single.after (quotedBody t)).after ['\''] = .plain
    rw [hafter]
    rfl

/-- Typed arguments are not cut, and leave no quote open. -/
theorem closed_quotedArguments (args : List (List Char)) : Closed (quotedArguments args) := by
  induction args with
  | nil => exact ⟨trivial, rfl⟩
  | cons a args ih =>
    have hblank : Closed [' '] := ⟨by simp [unbroken_cons, separator], rfl⟩
    show Closed ([' '] ++ (quoted a ++ quotedArguments args))
    exact closed_append hblank (closed_append (closed_quoted a) ih)

/-- A typed command is not cut, and leaves no quote open. -/
theorem closed_quotedCommand (name : List Char) (args : List (List Char)) :
    Closed (quotedCommand name args) := by
  have hdash : Closed [' ', '-', '-'] := by
    constructor
    · simp [unbroken_cons, separator, Scan.step]
    · rfl
  exact closed_append (closed_quoted name) (closed_append hdash (closed_quotedArguments args))

/-- A typed command starts with a quote and ends with a quote or a hyphen. -/
theorem trim_quotedCommand (name : List Char) (args : List (List Char)) :
    Text.trim (quotedCommand name args) = quotedCommand name args := by
  -- The last character is a hyphen without arguments, and a quote with some.
  rcases List.eq_nil_or_concat' args with rfl | ⟨args, a, rfl⟩
  · have h : quotedCommand name []
        = '\'' :: ((quotedBody name ++ ['\'', ' ', '-']) ++ ['-']) := by
      simp [quotedCommand, quotedArguments, quoted]
    rw [h]
    exact Text.trim_cons_concat (by decide) (by decide) _
  · have h : quotedCommand name (args ++ [a])
        = '\'' :: ((quotedBody name ++ '\'' :: ' ' :: '-' :: '-'
            :: (quotedArguments args ++ ' ' :: '\'' :: quotedBody a)) ++ ['\'']) := by
      simp [quotedCommand, quotedArguments, quoted]
    rw [h]
    exact Text.trim_cons_concat (by decide) (by decide) _

/-- A list of commands as one line: typed commands with separators between them. -/
def typed (commands : List (String × List String)) : String :=
  String.ofList (List.intercalate [separator]
    (commands.map fun (name, args) => quotedCommand name.toList (args.map String.toList)))

/-- The segments of a typed line are the typed commands. -/
theorem segments?_typed (commands : List (String × List String)) :
    segments? (typed commands).toList
      = some (commands.map fun (name, args) => quotedCommand name.toList (args.map String.toList)) := by
  rw [typed, String.toList_ofList]
  -- Typed commands are closed, trimmed and not empty.
  apply segments?_intercalate
  · intro p hp
    obtain ⟨⟨name, args⟩, -, rfl⟩ := List.mem_map.mp hp
    exact closed_quotedCommand _ _
  · intro p hp
    obtain ⟨⟨name, args⟩, -, rfl⟩ := List.mem_map.mp hp
    exact trim_quotedCommand _ _
  · intro p hp
    obtain ⟨⟨name, args⟩, -, rfl⟩ := List.mem_map.mp hp
    simp [quotedCommand, quoted]

/-- A typed command reads as its name with the bare `--` and its arguments behind it. -/
theorem ofSegment_quotedCommand (name : String) (args : List String) :
    Reading.ofSegment (quotedCommand name.toList (args.map String.toList))
      = .ok (.named name ("--" :: args)) := by
  have hofList : (args.map String.toList).map String.ofList = args := by
    rw [List.map_map]
    exact (List.map_congr_left fun s _ => String.ofList_toList).trans (List.map_id args)
  have htokens := ofChars_quotedCommand name.toList (args.map String.toList)
  rw [quotedCommand, quoted_append] at htokens ⊢
  rw [Reading.ofSegment_of_unmarked (by simp), htokens]
  simp [Except.map, Reading.ofWords, hofList]

/-- A typed command is read as an internal command, all of whose arguments are values. -/
theorem readSegment_quotedCommand (name : String) (args : List String) :
    Id.run (readSegment (fun _ => pure true) (quotedCommand name.toList (args.map String.toList)))
      = .ok (some (.internal name args [])) := by
  unfold readSegment
  rw [ofSegment_quotedCommand]
  simp [Reading.command, Argument.classify, Argument.endOfParameters]

/-- Typed commands are read back one by one, with all their arguments as values. -/
theorem readSegments_quotedCommands (commands : List (String × List String)) :
    Id.run (readSegments (fun _ => pure true)
        (commands.map fun (name, args) => quotedCommand name.toList (args.map String.toList)))
      = .ok (commands.map fun (name, args) => .internal name args []) := by
  induction commands with
  | nil => rfl
  | cons command commands ih =>
    obtain ⟨name, args⟩ := command
    rw [List.map_cons, readSegments, Id.run_bind, readSegment_quotedCommand]
    show Id.run (readSegments (m := Id) _ _ >>= _) = _
    rw [Id.run_bind, ih]
    rfl

/-- Reading a typed line where every name is internal gives back the commands. -/
theorem read_typed (commands : List (String × List String)) :
    Id.run (read (fun _ => pure true) (typed commands).toList)
      = .ok (commands.map fun (name, args) => .internal name args []) := by
  unfold read
  rw [segments?_typed]
  exact readSegments_quotedCommands commands

end Line

/-- **Every list of commands can be typed.** Where every name is internal, the typed line is parsed to
exactly one command for each pair, in order: its name, all its arguments as values (absent if there
are none), no parameters and nothing for the host. -/
theorem Session.parse_typed (w : World) (commands : List (String × List String)) :
    ∃ w', (parse (Line.typed commands)).run { w with classifier := .everything }
      = .ok (commands.map fun (name, args) =>
          { name := some name
            values := if args = [] then none else some args
            parameters := none
            system := none }) w' := by
  have hinternal (name : String) (args : List String) :
      Command.internal name args [] = ⟨some name, if args = [] then none else some args, none, none⟩ := by
    cases args <;> rfl
  have hread := Line.read_typed commands
  simp only [hinternal] at hread
  exact ⟨_, run_parse_of_answers (fun n => run_classify_everything rfl n) hread⟩

end CommandShell
