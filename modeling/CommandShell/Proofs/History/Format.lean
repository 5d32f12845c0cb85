import CommandShell.History.Format
import CommandShell.Proofs.Text.Utf8

/-! # The format of histories reads back

What is appended for an entry reads back as that entry, whatever the entry holds, and leaves the entries
before it as they were: `entries_append_written`. All that is asked of the bytes before is that they do
not end within a line. The line feed is what keeps entries apart: it is a byte that no other character
has among its own (`newline_not_mem_encode`), and the blank line before an entry ends the run of the
entry before it (`gather_append_blank`). -/

namespace CommandShell

/-! ## Line feeds among the bytes of a text -/

namespace Utf8

/-- No byte but the tenth is a line feed. -/
theorem ofNat_ne_newline {n : Nat} (hbyte : n < 256) (hn : n ≠ 10) :
    HistoryFormat.newline ≠ UInt8.ofNat n := by
  intro h
  have hvalue := congrArg UInt8.toNat h
  rw [toNat_ofNat_byte hbyte] at hvalue
  exact hn hvalue.symm

/-- No character but the line feed has a line feed among its bytes. -/
theorem newline_not_mem_encodeChar {c : Char} (hc : c ≠ '\n') :
    HistoryFormat.newline ∉ String.utf8EncodeChar c := by
  have hvalue : c.val.toNat ≠ 10 := fun h => hc (Char.ext (UInt32.toNat_inj.mp h))
  unfold String.utf8EncodeChar
  generalize c.val.toNat = v at hvalue
  -- A character of one byte is that byte, and all bytes of longer ones are large.
  by_cases h₁ : v ≤ 0x7f
  · simp only [if_pos h₁, List.mem_singleton]
    exact ofNat_ne_newline (by omega) hvalue
  have hlead {n m : Nat} (hm : m = 0xc0 ∨ m = 0xe0 ∨ m = 0xf0) (hn : n < 256 - m) :
      HistoryFormat.newline ≠ UInt8.ofNat (n + m) := ofNat_ne_newline (by omega) (by omega)
  have hnext (n : Nat) : HistoryFormat.newline ≠ UInt8.ofNat (n % 0x40 + 0x80) :=
    ofNat_ne_newline (by omega) (by omega)
  by_cases h₂ : v ≤ 0x7ff
  · simp only [if_neg h₁, if_pos h₂, List.mem_cons, List.not_mem_nil, or_false, not_or]
    exact ⟨hlead (by omega) (by omega), hnext _⟩
  by_cases h₃ : v ≤ 0xffff
  · simp only [if_neg h₁, if_neg h₂, if_pos h₃, List.mem_cons, List.not_mem_nil, or_false, not_or]
    exact ⟨hlead (by omega) (by omega), hnext _, hnext _⟩
  · simp only [if_neg h₁, if_neg h₂, if_neg h₃, List.mem_cons, List.not_mem_nil, or_false, not_or]
    exact ⟨hlead (by omega) (by omega), hnext _, hnext _, hnext _⟩

/-- The bytes of a text without line feeds hold none either. -/
theorem newline_not_mem_encode {cs : List Char} (h : '\n' ∉ cs) :
    HistoryFormat.newline ∉ encode cs := by
  intro hmem
  obtain ⟨c, hc, hbyte⟩ := List.mem_flatMap.mp hmem
  refine newline_not_mem_encodeChar ?_ hbyte
  rintro rfl
  exact h hc

/-- Lenient reading reads a text back from its bytes. -/
theorem decodeLossy_encode (cs : List Char) : decodeLossy (encode cs) = cs := by
  unfold decodeLossy
  induction cs with
  | nil =>
    rw [encode_nil, pieces]
    rfl
  | cons c cs ih =>
    rw [pieces_encode_cons, List.map_cons, ih]
    rfl

end Utf8

namespace HistoryFormat

/-! ## Lines -/

/-- Some bytes do not end within a line: there are none, or the last one is a line feed. -/
def EndsLine (data : List UInt8) : Prop := data = [] ∨ data.getLast? = some newline

/-- Bytes do not end within a line if what was put at their end does not. -/
theorem endsLine_append {data more : List UInt8} (h : more.getLast? = some newline) :
    EndsLine (data ++ more) := by
  right
  rw [List.getLast?_append, h]
  rfl

/-- Bytes that do not end within a line are cut apart from those behind them. -/
theorem splitLines_append {data : List UInt8} (h : EndsLine data) (more : List UInt8) :
    splitLines (data ++ more) = splitLines data ++ splitLines more := by
  induction data with
  | nil => rfl
  | cons b bs ih =>
    have hlast : (b :: bs).getLast? = some newline := h.resolve_left (List.cons_ne_nil b bs)
    by_cases hbs : bs = []
    · -- The last byte of all ends its line.
      subst hbs
      obtain rfl : b = newline := Option.some.inj hlast
      rfl
    have hrest : EndsLine bs := .inr (by rwa [List.getLast?_cons_of_ne_nil hbs] at hlast)
    have hlines : splitLines bs ≠ [] := by
      cases bs with
      | nil => exact absurd rfl hbs
      | cons b' bs =>
        rw [splitLines]
        split
        · exact List.cons_ne_nil _ _
        · split
          · exact List.cons_ne_nil _ _
          · exact List.cons_ne_nil _ _
    rw [List.cons_append, splitLines, splitLines, ih hrest]
    by_cases hb : b = newline
    · rw [if_pos hb, if_pos hb, List.cons_append]
    · rw [if_neg hb, if_neg hb]
      cases hsplit : splitLines bs with
      | nil => exact absurd hsplit hlines
      | cons l ls => rfl

/-- The bytes of a line that is written are cut off as they are. -/
theorem splitLines_encode_line {line : List Char} (h : '\n' ∉ line) (more : List UInt8) :
    splitLines (Utf8.encode (line ++ ['\n']) ++ more)
      = Utf8.encode (line ++ ['\n']) :: splitLines more := by
  have hgo (bytes : List UInt8) (hbytes : newline ∉ bytes) :
      splitLines (bytes ++ newline :: more) = (bytes ++ [newline]) :: splitLines more := by
    induction bytes with
    | nil => rw [List.nil_append, splitLines, if_pos rfl, List.nil_append]
    | cons b bs ih =>
      rw [List.mem_cons, not_or] at hbytes
      rw [List.cons_append, splitLines, if_neg (Ne.symm hbytes.1), ih hbytes.2, List.cons_append]
  have hend : Utf8.encode ['\n'] = [newline] := rfl
  have hline := hgo (Utf8.encode line) (Utf8.newline_not_mem_encode h)
  rw [Utf8.encode_append, hend, List.append_assoc, List.singleton_append, hline]

/-- The lines of a text that is written line by line are these lines. -/
theorem lines_encode {lines : List (List Char)} (h : ∀ l ∈ lines, '\n' ∉ l) :
    (splitLines (Utf8.encode (lines.flatMap fun l => l ++ ['\n']))).map Utf8.decodeLossy
      = lines.map fun l => l ++ ['\n'] := by
  induction lines with
  | nil => rfl
  | cons l ls ih =>
    have hrest := ih fun l hl => h l (List.mem_cons_of_mem _ hl)
    rw [List.flatMap_cons, Utf8.encode_append, splitLines_encode_line (h l List.mem_cons_self),
      List.map_cons, Utf8.decodeLossy_encode, hrest, List.map_cons]

/-! ## Runs -/

/-- A blank line ends a run: what is gathered before it stays apart from what comes after it. -/
theorem gather_append_blank (run : Option (List Char)) (ls more : List (List Char)) :
    gather run (ls ++ ['\n'] :: more) = gather run ls ++ gather none more := by
  induction ls generalizing run with
  | nil => rfl
  | cons l ls ih =>
    -- A marked line prolongs the run, any other ends it.
    rw [List.cons_append]
    by_cases hmark : ∃ l', l = '+' :: l'
    · obtain ⟨l', rfl⟩ := hmark
      rw [gather, gather, ih]
    · rw [gather, gather, ih, List.append_assoc]
      · rintro l' rfl
        exact hmark ⟨l', rfl⟩
      · rintro l' rfl
        exact hmark ⟨l', rfl⟩

/-- Marked lines behind a run belong to it, and the run loses its last line feed. -/
theorem gather_marked (run : List Char) (lines : List (List Char)) :
    gather (some run) (lines.map fun l => '+' :: l ++ ['\n'])
      = [(run ++ lines.flatMap fun l => l ++ ['\n']).dropLast] := by
  induction lines generalizing run with
  | nil => simp [gather]
  | cons l ls ih =>
    rw [List.map_cons, List.cons_append, gather, Option.getD_some, ih, List.flatMap_cons,
      List.append_assoc]

/-- The lines of a text, each with its line feed, are the text with a line feed behind it. -/
theorem flatMap_splitWhere (cs : List Char) :
    ((Text.splitWhere (· == '\n') cs).flatMap fun l => l ++ ['\n']) = cs ++ ['\n'] := by
  induction cs with
  | nil => rfl
  | cons c cs ih =>
    rw [Text.splitWhere]
    split
    · rename_i hc
      rw [List.flatMap_cons, ih, beq_iff_eq.mp hc]
      rfl
    · cases hsplit : Text.splitWhere (· == '\n') cs with
      | nil => exact absurd hsplit (Text.splitWhere_ne_nil _ cs)
      | cons w ws =>
        rw [hsplit] at ih
        rw [List.flatMap_cons] at ih ⊢
        rw [List.cons_append, List.cons_append, ih]
        rfl

/-- The lines of a text have no line feed in them. -/
theorem newline_not_mem_splitWhere {cs l : List Char}
    (h : l ∈ Text.splitWhere (· == '\n') cs) : '\n' ∉ l := by
  induction cs generalizing l with
  | nil =>
    rw [Text.splitWhere_nil, List.mem_singleton] at h
    simp [h]
  | cons c cs ih =>
    rw [Text.splitWhere] at h
    split at h
    · rcases List.mem_cons.mp h with rfl | h
      · exact List.not_mem_nil
      · exact ih h
    · rename_i hc
      have hne : c ≠ '\n' := fun h => hc (beq_iff_eq.mpr h)
      cases hsplit : Text.splitWhere (· == '\n') cs with
      | nil => exact absurd hsplit (Text.splitWhere_ne_nil _ cs)
      | cons w ws =>
        rw [hsplit] at h ih
        rcases List.mem_cons.mp h with rfl | h
        · rw [List.mem_cons, not_or]
          exact ⟨hne.symm, ih List.mem_cons_self⟩
        · exact ih (List.mem_cons_of_mem _ h)

/-! ## Entries -/

/-- The lines that are written for an entry. -/
def writtenLines (time : String) (entry : List Char) : List (List Char) :=
  [] :: ('#' :: ' ' :: time.toList) :: (Text.splitWhere (· == '\n') entry).map ('+' :: ·)

/-- What is written for an entry are the bytes of its lines, each ended by a line feed. -/
theorem written_eq (time entry : String) :
    written time entry
      = Utf8.encode ((writtenLines time entry.toList).flatMap fun l => l ++ ['\n']) := by
  have hlines : ((Text.splitWhere (· == '\n') entry.toList).map ('+' :: ·)).flatMap
      (fun l => l ++ ['\n']) = entryLines entry.toList := by
    rw [List.flatMap_map]
    rfl
  rw [written, writtenLines, List.flatMap_cons, List.flatMap_cons, hlines]
  simp

/-- What is written for an entry does not end within a line. -/
theorem endsLine_written (data : List UInt8) (time entry : String) :
    EndsLine (data ++ written time entry) := by
  have hlast (cs : List Char) : (Utf8.encode (cs ++ ['\n'])).getLast? = some newline := by
    rw [Utf8.encode_append, List.getLast?_append]
    rfl
  have hlines : Text.splitWhere (· == '\n') entry.toList ≠ [] := Text.splitWhere_ne_nil _ _
  refine endsLine_append ?_
  rw [written, entryLines, ← List.dropLast_concat_getLast hlines, List.flatMap_append,
    List.flatMap_singleton, ← List.append_assoc, ← List.append_assoc]
  exact hlast _

/-- **What is appended for an entry reads back as that entry**, behind the entries that stood there. -/
theorem entries_append_written {data : List UInt8} (h : EndsLine data) {time : String}
    (htime : '\n' ∉ time.toList) (entry : String) :
    entries (data ++ written time entry) = entries data ++ [entry] := by
  have hclean : ∀ l ∈ writtenLines time entry.toList, '\n' ∉ l := by
    intro l hl
    rcases List.mem_cons.mp hl with rfl | hl
    · exact List.not_mem_nil
    rcases List.mem_cons.mp hl with rfl | hl
    · simpa using htime
    · obtain ⟨l', hl', rfl⟩ := List.mem_map.mp hl
      simpa using newline_not_mem_splitWhere hl'
  have hlines : (splitLines (data ++ written time entry)).map Utf8.decodeLossy
      = (splitLines data).map Utf8.decodeLossy
        ++ (writtenLines time entry.toList).map fun l => l ++ ['\n'] := by
    rw [splitLines_append h, List.map_append, written_eq, lines_encode hclean]
  -- Behind the blank line and the time there is one run, which is the entry.
  have hrun : gather none (((Text.splitWhere (· == '\n') entry.toList).map ('+' :: ·)).map
      fun l => l ++ ['\n']) = [entry.toList] := by
    have htext := flatMap_splitWhere entry.toList
    cases hsplit : Text.splitWhere (· == '\n') entry.toList with
    | nil => exact absurd hsplit (Text.splitWhere_ne_nil _ _)
    | cons l ls =>
      rw [hsplit, List.flatMap_cons] at htext
      rw [List.map_map, List.map_cons]
      show gather (some (l ++ ['\n'])) (ls.map fun l => '+' :: l ++ ['\n']) = [entry.toList]
      rw [gather_marked, htext, List.dropLast_concat]
  have htime (more : List (List Char)) :
      gather none (('#' :: ' ' :: time.toList ++ ['\n']) :: more) = gather none more := rfl
  unfold entries
  rw [hlines, writtenLines, List.map_cons, List.map_cons, List.nil_append, gather_append_blank,
    htime, hrun, List.map_append, List.map_singleton, String.ofList_toList]

end HistoryFormat

end CommandShell
