import CommandShell.Command.Parse
import CommandShell.Proofs.Command.Quotes
import CommandShell.Proofs.Command.Segment

/-! # Blanks around a line

Blanks in front of a line and behind it belong to its first and its last piece, whatever is quoted there,
and trimming takes them from these. So a line has the segments of the stripped line
(`Line.segments?_trim`), and the commands too (`Line.read_strip`). -/

namespace CommandShell

/-- Behind blanks a quote is open exactly if it was open before. -/
theorem Scan.isOpen_after_blanks {bs : List Char} (h : ∀ b ∈ bs, Text.isBlank b = true) (q : Scan) :
    (q.after bs).isOpen = q.isOpen := by
  induction bs generalizing q with
  | nil => rfl
  | cons b bs ih =>
    obtain ⟨hb, hbs⟩ := List.forall_mem_cons.mp h
    obtain ⟨hplain, hopen⟩ := step_blank hb
    rw [after_cons, ih hbs]
    cases q with
    | plain => rw [hplain]
    | escaped => rfl
    | single => exact hopen _ rfl
    | double => exact hopen _ rfl
    | doubleEscaped => rfl

namespace Line

open Token

/-- Blanks are unbroken in every state. -/
theorem unbroken_blanks {bs : List Char} (h : ∀ b ∈ bs, Text.isBlank b = true) (q : Scan) :
    Unbroken q bs := by
  induction bs generalizing q with
  | nil => exact unbroken_nil q
  | cons b bs ih =>
    obtain ⟨hb, hbs⟩ := List.forall_mem_cons.mp h
    refine (unbroken_cons q b bs).mpr ⟨?_, ih hbs _⟩
    rintro ⟨-, rfl⟩
    exact absurd hb (by decide)

/-- **What is unbroken behind a text** belongs to the last piece of the text. -/
theorem rawPieces_append_unbroken {q : Scan} {cs ds : List Char} (h : Unbroken (q.after cs) ds) :
    ∃ ps p, rawPieces q cs = ps ++ [p] ∧ rawPieces q (cs ++ ds) = ps ++ [p ++ ds] := by
  induction cs generalizing q with
  | nil =>
    refine ⟨[], [], rfl, ?_⟩
    have hpieces := rawPieces_append h []
    rwa [List.append_nil, rawPieces_nil, extend_cons, List.append_nil] at hpieces
  | cons c cs ih =>
    by_cases hcut : q = .plain ∧ c = separator
    · obtain ⟨rfl, rfl⟩ := hcut
      obtain ⟨ps, p, hcs, hboth⟩ := ih (q := .plain) h
      refine ⟨[] :: ps, p, ?_, ?_⟩
      · rw [rawPieces_separator, hcs, List.cons_append]
      · rw [List.cons_append, rawPieces_separator, hboth, List.cons_append]
    · obtain ⟨ps, p, hcs, hboth⟩ := ih (q := q.step c) h
      rw [List.cons_append, rawPieces_cons hcut, rawPieces_cons hcut, hcs, hboth]
      -- The character is put in front of the first piece, which may be the last one too.
      cases ps with
      | nil => exact ⟨[], c :: p, rfl, rfl⟩
      | cons first ps => exact ⟨(c :: first) :: ps, p, rfl, rfl⟩

/-- **A line has the segments of the stripped line.** -/
theorem segments?_trim (line : List Char) : segments? (Text.trim line) = segments? line := by
  have hleading : ∀ b ∈ Text.leading line, Text.isBlank b = true := fun b => Text.isBlank_of_mem_leading
  have htrailing : ∀ b ∈ Text.trailing line, Text.isBlank b = true :=
    fun b => Text.isBlank_of_mem_trailing
  have hplain : Scan.plain.after (Text.leading line) = .plain := (Scan.after_blanks hleading).1
  have hopen : (Scan.plain.after line).isOpen = (Scan.plain.after (Text.trim line)).isOpen := by
    conv_lhs => rw [← Text.leading_trim_trailing line]
    rw [Scan.after_append, Scan.after_append, hplain, Scan.isOpen_after_blanks htrailing]
  have hpieces : (rawPieces .plain line).map Text.trim
      = (rawPieces .plain (Text.trim line)).map Text.trim := by
    obtain ⟨ps, p, htrim, hboth⟩ :=
      @rawPieces_append_unbroken .plain (Text.trim line) _ (unbroken_blanks htrailing _)
    conv_lhs => rw [← Text.leading_trim_trailing line]
    rw [rawPieces_append (unbroken_blanks hleading .plain), hplain, hboth, htrim]
    cases ps with
    | nil =>
      rw [List.nil_append, extend_cons, List.nil_append, List.map_singleton, List.map_singleton,
        Text.trim_blanks_append hleading, Text.trim_append_blanks htrailing]
    | cons first ps =>
      rw [List.cons_append, extend_cons, List.cons_append, List.map_cons, List.map_cons,
        List.map_append, List.map_append, List.map_singleton, List.map_singleton,
        Text.trim_blanks_append hleading, Text.trim_append_blanks htrailing]
  rw [segments?, segments?, hopen, hpieces]

/-- **A line has the commands of the stripped line.** -/
theorem read_strip {m : Type → Type} [Monad m] (ask : String → m Bool) (line : String) :
    read ask (Text.strip line).toList = read ask line.toList := by
  rw [Text.strip, String.toList_ofList, read, read, segments?_trim]

end Line

end CommandShell
