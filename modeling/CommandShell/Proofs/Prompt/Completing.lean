import CommandShell.Prompt.Completion
import CommandShell.Proofs.Command.Sequence
import CommandShell.Proofs.Loader.Shadowing
import CommandShell.Proofs.Registry.Completions
import CommandShell.Proofs.Registry.Redirects
import CommandShell.Proofs.Session.Ready

/-! # What the prompt completes

Completion knows what is typed behind the last semicolon, a line is cut at the separators that count. So
the word that is completed (`typedWord`) may be another than the word at the start of the last command
(`commandWord?`). For its own word the prompt offers just what can be completed, in ascending order
(`offers_completions`). It does so for the word of the last command exactly if the last semicolon counts
and nothing is left open at the end, or if there is no word in either reading
(`completesCommands_iff`). -/

namespace CommandShell

/-! ## The piece that is being typed -/

namespace Line

open Token

variable {front rest text : List Char}

/-- The last piece of a text: what stands behind the last separator that counts. -/
def lastPiece (text : List Char) : List Char :=
  (rawPieces .plain text).getLast (rawPieces_ne_nil _ _)

/-- The last piece is the last of the pieces. -/
theorem lastPiece_of_eq {ps : List (List Char)} {p : List Char}
    (h : rawPieces .plain text = ps ++ [p]) : lastPiece text = p := by
  unfold lastPiece
  simp only [h, List.getLast_concat]

/-- What has no separator is unbroken. -/
theorem unbroken_of_not_mem (h : separator ∉ text) (q : Scan) : Unbroken q text := by
  induction text generalizing q with
  | nil => exact unbroken_nil q
  | cons c cs ih =>
    obtain ⟨hc, hcs⟩ := not_or.mp (mt List.mem_cons.mpr h)
    exact (unbroken_cons q c cs).mpr ⟨fun hcut => hc hcut.2.symm, ih hcs _⟩

/-- A text without separators is one piece. -/
theorem rawPieces_of_not_mem (h : separator ∉ text) : rawPieces .plain text = [text] := by
  have hpieces := rawPieces_append (unbroken_of_not_mem h .plain) []
  rwa [List.append_nil, rawPieces_nil, extend_cons, List.append_nil] at hpieces

/-- A text without separator is its last piece. -/
theorem lastPiece_of_not_mem (h : separator ∉ text) : lastPiece text = text :=
  @lastPiece_of_eq text [] text (rawPieces_of_not_mem h)

/-- If the last separator counts, the last piece stands behind it. -/
theorem lastPiece_of_counts (h : Scan.plain.after front = .plain) (hrest : separator ∉ rest) :
    lastPiece (front ++ separator :: rest) = rest := by
  apply lastPiece_of_eq
  rw [rawPieces_append_separator h, rawPieces_of_not_mem hrest]

/-- If the last separator does not count, it stands in the last piece. -/
theorem separator_mem_lastPiece (h : Scan.plain.after front ≠ .plain) (hrest : separator ∉ rest) :
    separator ∈ lastPiece (front ++ separator :: rest) := by
  have hunbroken : Unbroken (Scan.plain.after front) (separator :: rest) :=
    (unbroken_cons _ _ _).mpr ⟨fun hcut => h hcut.1, unbroken_of_not_mem hrest _⟩
  obtain ⟨ps, p, -, hboth⟩ := rawPieces_append_unbroken hunbroken
  rw [lastPiece_of_eq hboth]
  exact List.mem_append_right _ List.mem_cons_self

/-- A text has no separator, or there is a last one. -/
theorem exists_last_separator (text : List Char) :
    separator ∉ text ∨ ∃ front rest, text = front ++ separator :: rest ∧ separator ∉ rest := by
  by_cases h : separator ∈ text
  · obtain ⟨before, after, hreverse, hbefore⟩ :=
      List.eq_append_cons_of_mem (List.mem_reverse.mpr h)
    refine .inr ⟨after.reverse, before.reverse, ?_, fun hmem => hbefore (List.mem_reverse.mp hmem)⟩
    rw [← List.reverse_reverse text, hreverse]
    simp
  · exact .inl h

end Line

namespace Prompt

open Line

variable {front rest text : List Char} {w : World} {word : List Char} {n : String}

/-! ## Two readings of a text -/

/-- The word that can be completed in what is typed of a command. -/
def word? (typed : List Char) : Option (List Char) := if offersNothing typed then none else some typed

/-- The word at the start of the last command of a text, if nothing is left open. -/
def commandWord? (text : List Char) : Option (List Char) :=
  if Scan.plain.after text = .plain then word? (Text.trimStart (lastPiece text)) else none

/-- A text is **cut as it is read** if nothing is left open at its end and its last separator, if it has
one, counts. -/
def CutAsRead (text : List Char) : Prop :=
  Scan.plain.after text = .plain ∧
    ∀ front rest, text = front ++ separator :: rest → separator ∉ rest → Scan.plain.after front = .plain

/-- What is typed is the word to complete unless it offers nothing. -/
theorem word?_eq_some_iff {typed : List Char} :
    word? typed = some word ↔ offersNothing typed = false ∧ typed = word := by
  unfold word?
  cases offersNothing typed <;> simp

/-- Read from its end, a text without separators has none. -/
theorem ne_separator_of_mem_reverse (h : separator ∉ text) : ∀ c ∈ text.reverse, (c != ';') = true := by
  intro c hc
  refine bne_iff_ne.mpr ?_
  rintro rfl
  exact h (List.mem_reverse.mp hc)

/-- Without a separator all of the text is typed. -/
theorem typedWord_of_not_mem (h : separator ∉ text) : typedWord text = Text.trimStart text := by
  rw [typedWord, List.takeWhile_eq_self_iff.mpr (ne_separator_of_mem_reverse h), List.reverse_reverse]

/-- Behind the last separator stands what is typed. -/
theorem typedWord_append (hrest : separator ∉ rest) :
    typedWord (front ++ separator :: rest) = Text.trimStart rest := by
  have hreverse : (front ++ separator :: rest).reverse
      = rest.reverse ++ separator :: front.reverse := by simp
  rw [typedWord, hreverse, List.takeWhile_append_of_pos (ne_separator_of_mem_reverse hrest),
    List.takeWhile_cons_of_neg (by decide), List.append_nil, List.reverse_reverse]

/-- No separator stands in the typed word. -/
theorem separator_not_mem_typedWord (text : List Char) : separator ∉ typedWord text := by
  have hstart {cs : List Char} (h : separator ∉ cs) : separator ∉ Text.trimStart cs :=
    fun hmem => h ((List.dropWhile_sublist _).mem hmem)
  obtain h | ⟨front, rest, rfl, hrest⟩ := exists_last_separator text
  · rw [typedWord_of_not_mem h]
    exact hstart h
  · rw [typedWord_append hrest]
    exact hstart hrest

/-- A separator is not lost with the blanks in front of it. -/
theorem separator_mem_trimStart (h : separator ∈ text) : separator ∈ Text.trimStart text := by
  induction text with
  | nil => exact absurd h List.not_mem_nil
  | cons c cs ih =>
    rw [Text.trimStart_cons]
    split
    · rename_i hblank
      rcases List.mem_cons.mp h with rfl | h
      · exact absurd hblank (by decide)
      · exact ih h
    · exact h

/-- A text that is cut as it is read has one word in both readings. -/
theorem CutAsRead.typedWord_eq (h : CutAsRead text) : typedWord text = Text.trimStart (lastPiece text) := by
  obtain hnone | ⟨front, rest, rfl, hrest⟩ := exists_last_separator text
  · rw [typedWord_of_not_mem hnone, lastPiece_of_not_mem hnone]
  · rw [typedWord_append hrest, lastPiece_of_counts (h.2 front rest rfl hrest) hrest]

/-- **The two readings agree** exactly on a text that is cut as it is read, or that has no word in
either. -/
theorem word?_typedWord_eq_iff (text : List Char) : word? (typedWord text) = commandWord? text ↔
    CutAsRead text ∨ word? (typedWord text) = none ∧ commandWord? text = none := by
  constructor
  · intro heq
    cases hword : word? (typedWord text) with
    | none => exact .inr ⟨rfl, heq ▸ hword⟩
    | some word =>
      rw [hword] at heq
      unfold commandWord? at heq
      split at heq
      · rename_i hplain
        have htyped := (word?_eq_some_iff.mp hword).2
        have hcommand := (word?_eq_some_iff.mp heq.symm).2
        refine .inl ⟨hplain, fun front rest htext hrest => ?_⟩
        -- A last separator that does not count would stand in the one word and not in the other.
        by_contra hcounts
        have hmem := separator_mem_trimStart (separator_mem_lastPiece hcounts hrest)
        rw [← htext, hcommand, ← htyped] at hmem
        exact separator_not_mem_typedWord text hmem
      · cases heq
  · rintro (h | ⟨htyped, hcommand⟩)
    · rw [commandWord?, if_pos h.1, h.typedWord_eq]
    · rw [htyped, hcommand]

/-! ## What is offered -/

/-- A name **can be completed**: the registry of the session lists it, or there is a module of this
name. -/
def Completable (w : World) (available : List String) (n : String) : Prop :=
  (∃ e ∈ w.commands.commands.values, e.Lists n) ∨ n ∈ available

/-- An answer **offers a word's completions**: nothing without a word, else what can be completed and
begins with the word, each once and in ascending order. If the search for modules fails, so does the
completion of a word. -/
inductive Offers (w : World) : Option (List Char) → Except Fault (List Completion) → Prop
  | nothing : Offers w none (.ok [])
  | names {word : List Char} {available : List String} {cs : List Completion}
      (found : w.outcome Loader.available = .ok available)
      (ascending : (cs.map Completion.text).Pairwise (· < ·))
      (mem_iff : ∀ n, n ∈ cs.map Completion.text ↔ Completable w available n ∧ word <+: n.toList)
      (replaced : ∀ c ∈ cs, c.replaced = word.length) : Offers w (some word) (.ok cs)
  | fails {word : List Char} {f : Fault} (fault : w.outcome Loader.available = .error f) :
      Offers w (some word) (.error f)

/-- The names that can be completed, with what is shown beside them. -/
def known (r : Registry) (available : List String) : Table String String :=
  available.foldl (fun t n => t.putNew n "command module") r.completions

/-- Every name that can be completed is known once. -/
theorem nodup_keys_known (r : Registry) (available : List String) : (known r available).keys.Nodup := by
  let Apart (t : Table String String) : Prop := t.keys.Nodup
  have hput (description : String) (names : List String) (t : Table String String) (ht : Apart t) :
      Apart (names.foldl (fun t n => t.put n description) t) :=
    List.foldlRecOn (motive := Apart) names _ ht fun _ ht n _ => Table.nodup_keys_put ht n _
  have hregistered : Apart r.completions :=
    List.foldlRecOn (motive := Apart) _ _ List.nodup_nil fun t ht e _ => hput e.description _ t ht
  exact List.foldlRecOn (motive := Apart) available _ hregistered
    fun _ ht n _ => Table.nodup_keys_putNew ht n _

/-- One description put under several new names stands under each of them. -/
theorem mem_keys_foldl_putNew {description : String} (names : List String) (t : Table String String) :
    n ∈ (names.foldl (fun t m => t.putNew m description) t).keys ↔ n ∈ t.keys ∨ n ∈ names := by
  induction names generalizing t with
  | nil => simp
  | cons m names ih =>
    have hput : n ∈ (t.putNew m description).keys ↔ n ∈ t.keys ∨ n = m := by
      rw [Table.mem_keys_iff, Table.mem_keys_iff, Table.get?_putNew]
      by_cases hm : m = n
      · cases t.get? n <;> simp [hm]
      · simp [hm, Ne.symm hm]
    rw [List.foldl_cons, ih, hput, List.mem_cons, or_assoc]

/-- The names that are shown for a registry are those that its entries list. -/
theorem mem_keys_completions (r : Registry) :
    n ∈ r.completions.keys ↔ ∃ e ∈ r.commands.values, e.Lists n := by
  rw [Table.mem_keys_iff, Registry.get?_completions]
  constructor
  · rintro ⟨d, hd⟩
    obtain ⟨e, he, -⟩ := Option.map_eq_some_iff.mp hd
    exact ⟨e, Registry.mem_of_shown? he⟩
  · rintro ⟨e, he, hlists⟩
    obtain ⟨e', he'⟩ := Registry.exists_shown? he hlists
    exact ⟨e'.description, by rw [he']; rfl⟩

/-- The names that can be completed are those of the registry and those of the modules. -/
theorem mem_keys_known {available : List String} :
    n ∈ (known w.commands available).keys ↔ Completable w available n := by
  rw [known, mem_keys_foldl_putNew, mem_keys_completions]
  rfl

/-- The completions of a word among some names. -/
def offered (names : Table String String) (word : List Char) : List Completion :=
  ((names.toList.mergeSort fun a b => decide (a.1 ≤ b.1)).filter
    fun (n, _) => word.isPrefixOf n.toList).map fun (n, d) => ⟨n, word.length, d⟩

/-- The offered names are the known ones that begin with the word, sorted. -/
theorem map_text_offered (names : Table String String) (word : List Char) :
    (offered names word).map Completion.text
      = ((names.toList.mergeSort fun a b => decide (a.1 ≤ b.1)).filter
          fun (n, _) => word.isPrefixOf n.toList).map Prod.fst := by
  rw [offered, List.map_map]
  rfl

/-- A name is offered if it is known and begins with the word. -/
theorem mem_offered_iff (names : Table String String) (word : List Char) :
    n ∈ (offered names word).map Completion.text ↔ n ∈ names.keys ∧ word <+: n.toList := by
  rw [map_text_offered]
  constructor
  · intro h
    obtain ⟨p, hp, rfl⟩ := List.mem_map.mp h
    obtain ⟨hp, hprefix⟩ := List.mem_filter.mp hp
    exact ⟨List.mem_map_of_mem (List.mem_mergeSort.mp hp), List.isPrefixOf_iff_prefix.mp hprefix⟩
  · rintro ⟨hn, hprefix⟩
    obtain ⟨p, hp, rfl⟩ := List.mem_map.mp hn
    exact List.mem_map_of_mem
      (List.mem_filter.mpr ⟨List.mem_mergeSort.mpr hp, List.isPrefixOf_iff_prefix.mpr hprefix⟩)

/-- The offered names are in strictly ascending order. -/
theorem pairwise_offered {names : Table String String} (h : names.keys.Nodup) (word : List Char) :
    ((offered names word).map Completion.text).Pairwise (· < ·) := by
  rw [map_text_offered, List.pairwise_map]
  exact (pairwise_mergeSort_by_lt Prod.fst h).filter _

/-- Nothing is offered without a word. With one the names that begin with it are, unless the search for
modules fails. -/
theorem outcome_completions (w : World) (text : String) : w.outcome (completions text) =
    match word? (typedWord text.toList) with
    | none => .ok []
    | some word => (w.outcome Loader.available).map
        fun available => offered (known w.commands available) word := by
  have hcompletions : completions text =
      if offersNothing (typedWord text.toList) then pure []
      else (do
        let v ← get
        let available ← Loader.available
        pure (offered (known v.commands available) (typedWord text.toList))) := rfl
  rw [hcompletions, word?]
  split
  · rfl
  · rw [World.outcome_bind_ok (EStateM.run_get w)]
    exact World.outcome_bind_pure _ _ w

/-- **The prompt completes the typed word.** -/
theorem offers_completions (w : World) (text : String) :
    Offers w (word? (typedWord text.toList)) (w.outcome (completions text)) := by
  rw [outcome_completions]
  cases word? (typedWord text.toList) with
  | none => exact .nothing
  | some word =>
    cases havailable : w.outcome Loader.available with
    | error f => exact .fails havailable
    | ok available =>
      refine .names havailable (pairwise_offered (nodup_keys_known _ _) _) (fun n => ?_) fun c hc => ?_
      · rw [mem_offered_iff, mem_keys_known]
      · obtain ⟨p, -, rfl⟩ := List.mem_map.mp hc
        rfl

/-! ## Whose word is completed -/

/-- A text is **completed as a command** if the word of its last command is completed, whatever is
registered and wherever modules are found. -/
def CompletesCommands (text : String) : Prop :=
  ∀ w : World, Offers w (commandWord? text.toList) (w.outcome (completions text))

/-- A name is among what is offered exactly if there is a word, and the name can be completed and begins
with it. -/
theorem Offers.mem_iff {word? : Option (List Char)} {r : Except Fault (List Completion)}
    (h : Offers w word? r) {available : List String} (ha : w.outcome Loader.available = .ok available) :
    (∃ cs, r = .ok cs ∧ n ∈ cs.map Completion.text) ↔
      Completable w available n ∧ ∃ word, word? = some word ∧ word <+: n.toList := by
  cases h with
  | nothing => simp
  | names found _ mem_iff _ =>
    rw [found] at ha
    cases ha
    simpa using mem_iff n
  | fails fault =>
    rw [fault] at ha
    cases ha

/-- A command with a description that does nothing. -/
def idle (name description : String) : Entry := ⟨0, name, description, none, [], false, .script []⟩

/-- A world without modules in which there is one command. -/
def worldOf (e : Entry) : World :=
  { (default : World) with registries := (default : Registries).set default (Registry.empty.add e) }

/-- The world of one command has no modules. -/
theorem outcome_available_worldOf (e : Entry) : (worldOf e).outcome Loader.available = .ok [] := by
  show Except.ok (List.mergeSort [] _) = _
  rw [List.mergeSort_nil]

/-- Its registry has this one command. -/
theorem commands_worldOf (e : Entry) : (worldOf e).commands = Registry.empty.add e :=
  (Registries.get_set _ default default _).trans (if_pos rfl)

/-- So the command's own name can be completed. -/
theorem completable_worldOf (e : Entry) : Completable (worldOf e) [] e.name := by
  refine .inl ⟨e, ?_, e.lists_name⟩
  rw [commands_worldOf]
  exact List.mem_singleton_self e

/-- Words of which the same texts are continuations are the same. -/
theorem eq_of_forall_prefix_iff {a b : Option (List Char)}
    (h : ∀ cs : List Char, (∃ u, a = some u ∧ u <+: cs) ↔ ∃ v, b = some v ∧ v <+: cs) : a = b := by
  cases a with
  | none =>
    cases b with
    | none => rfl
    | some v =>
      obtain ⟨u, hu, -⟩ := (h v).mpr ⟨v, rfl, List.prefix_refl v⟩
      cases hu
  | some u =>
    obtain ⟨v, rfl, hvu⟩ := (h u).mp ⟨u, rfl, List.prefix_refl u⟩
    obtain ⟨u', hu', huv⟩ := (h v).mpr ⟨v, rfl, List.prefix_refl v⟩
    cases hu'
    exact congrArg some (huv.eq_of_length_le hvu.length_le)

/-- One answer in each world offers the completions of one word only. -/
theorem eq_of_offers {a b : Option (List Char)} {r : World → Except Fault (List Completion)}
    (ha : ∀ w, Offers w a (r w)) (hb : ∀ w, Offers w b (r w)) : a = b := by
  refine eq_of_forall_prefix_iff fun cs => ?_
  -- In a world in which this text is the name of a command it is offered for both words or for none.
  let e := idle (String.ofList cs) ""
  have havailable := outcome_available_worldOf e
  have hcompletable := completable_worldOf e
  have hboth := ((ha (worldOf e)).mem_iff (n := e.name) havailable).symm.trans
    ((hb (worldOf e)).mem_iff havailable)
  rw [and_iff_right hcompletable, and_iff_right hcompletable] at hboth
  rwa [show e.name.toList = cs from String.toList_ofList] at hboth

/-- **When the prompt completes commands.** Whatever is typed, the prompt offers the completions of the
word behind the last semicolon. This is the word of the last command exactly if the text is cut as it is
read, or if there is no word in either reading. -/
theorem completesCommands_iff (text : String) :
    (∀ w : World, Offers w (word? (typedWord text.toList)) (w.outcome (completions text))) ∧
    (CompletesCommands text ↔ CutAsRead text.toList ∨
      word? (typedWord text.toList) = none ∧ commandWord? text.toList = none) := by
  have hoffers : ∀ w : World, Offers w (word? (typedWord text.toList)) (w.outcome (completions text)) :=
    fun w => offers_completions w text
  refine ⟨hoffers, ?_⟩
  rw [← word?_typedWord_eq_iff]
  constructor
  · intro hcommands
    exact eq_of_offers hoffers hcommands
  · intro heq w
    rw [← heq]
    exact hoffers w

/-- Behind a semicolon inside quotes a command is offered, where no command can begin. -/
theorem completes_inside_quotes :
    commandWord? "echo \"a; he".toList = none ∧
    (worldOf (idle "help" "Show")).outcome (completions "echo \"a; he")
      = .ok [⟨"help", 2, "Show"⟩] ∧
    ¬ CompletesCommands "echo \"a; he" := by
  have hnone : commandWord? "echo \"a; he".toList = none := by decide
  have hword : word? (typedWord "echo \"a; he".toList) = some "he".toList := by decide
  have hshown : (worldOf (idle "help" "Show")).outcome (completions "echo \"a; he")
      = .ok [⟨"help", 2, "Show"⟩] := by
    have hknown : known (Registry.empty.add (idle "help" "Show")) [] = ⟨[("help", "Show")]⟩ := by decide
    rw [outcome_completions, hword, outcome_available_worldOf, commands_worldOf]
    show Except.ok (offered (known (Registry.empty.add (idle "help" "Show")) []) "he".toList) = _
    rw [hknown, offered, List.mergeSort_singleton]
    rfl
  refine ⟨hnone, hshown, fun hcompletes => ?_⟩
  have hoffers := hcompletes (worldOf (idle "help" "Show"))
  rw [hnone, hshown] at hoffers
  cases hoffers

end Prompt

end CommandShell
