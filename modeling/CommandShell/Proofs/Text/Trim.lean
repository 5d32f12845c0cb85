import CommandShell.Text.Blank
import Mathlib.Data.List.DropRight
import Mathlib.Data.List.TakeWhile

/-! # Trimming

A text is what trimming leaves of it, between the blanks at its two ends (`leading_trim_trailing`). What
is left neither starts nor ends with a blank, so trimming it again changes nothing (`trim_trim`). -/

namespace CommandShell.Text

/-- Where dropping stops, there is no blank. -/
theorem isBlank_head_dropWhile {cs rest : List Char} {c : Char}
    (h : cs.dropWhile isBlank = c :: rest) : isBlank c = false := by
  have hhead := List.head?_dropWhile_not isBlank cs
  rw [h] at hhead
  exact hhead

/-! ## The blanks at the ends -/

/-- The blanks that a text starts with. -/
def leading (cs : List Char) : List Char := cs.takeWhile isBlank

/-- The blanks that a text ends with, unless it starts with them already. -/
def trailing (cs : List Char) : List Char := ((trimStart cs).reverse.takeWhile isBlank).reverse

/-- Trimming and the blanks at the end make up what trimming at the start leaves. -/
theorem trim_trailing (cs : List Char) : trim cs ++ trailing cs = trimStart cs := by
  rw [trim, trimEnd, trailing, ← List.reverse_append, List.takeWhile_append_dropWhile,
    List.reverse_reverse]

/-- **A text is what trimming leaves of it** between the blanks at its ends. -/
theorem leading_trim_trailing (cs : List Char) : leading cs ++ (trim cs ++ trailing cs) = cs := by
  rw [trim_trailing]
  exact List.takeWhile_append_dropWhile

/-- All that a text has in front of its trimmed part is blank. -/
theorem isBlank_of_mem_leading {cs : List Char} {c : Char} (h : c ∈ leading cs) : isBlank c = true :=
  List.mem_takeWhile_imp h

/-- All that it has behind this part is blank. -/
theorem isBlank_of_mem_trailing {cs : List Char} {c : Char} (h : c ∈ trailing cs) :
    isBlank c = true :=
  List.mem_takeWhile_imp (List.mem_reverse.mp h)

/-! ## What trimming leaves -/

/-- What is left starts with a character that is not blank. -/
theorem isBlank_head_trim {cs rest : List Char} {c : Char} (h : trim cs = c :: rest) :
    isBlank c = false := by
  have hstart := trim_trailing cs
  rw [h] at hstart
  exact isBlank_head_dropWhile hstart.symm

/-- Trimming leaves nothing of a text exactly if all of it is blank. -/
theorem trim_eq_nil_iff {cs : List Char} : trim cs = [] ↔ ∀ c ∈ cs, isBlank c = true := by
  constructor
  · intro h c hc
    rw [← leading_trim_trailing cs, h, List.nil_append] at hc
    rcases List.mem_append.mp hc with hc | hc
    · exact isBlank_of_mem_leading hc
    · exact isBlank_of_mem_trailing hc
  · intro h
    have hstart : trimStart cs = [] := List.dropWhile_eq_nil_iff.mpr h
    rw [trim, hstart, trimEnd_nil]

/-- Trimming at the end twice takes no more than once. -/
theorem trimEnd_trimEnd (cs : List Char) : trimEnd (trimEnd cs) = trimEnd cs :=
  List.rdropWhile_idempotent isBlank cs

/-- **What is left is trimmed.** -/
theorem trim_trim (cs : List Char) : trim (trim cs) = trim cs := by
  have hstart : trimStart (trim cs) = trim cs := by
    cases h : trim cs with
    | nil => rfl
    | cons c rest => rw [trimStart_cons, if_neg (by rw [isBlank_head_trim h]; exact Bool.false_ne_true)]
  rw [trim, hstart, trim, trimEnd_trimEnd]

/-- Trimming does not see blanks in front of a text. -/
theorem trim_blanks_append {bs : List Char} (h : ∀ b ∈ bs, isBlank b = true) (cs : List Char) :
    trim (bs ++ cs) = trim cs := by
  rw [trim, trim, trimStart, List.dropWhile_append_of_pos h, trimStart]

/-- Trimming does not see blanks behind a text. -/
theorem trim_append_blanks {bs : List Char} (h : ∀ b ∈ bs, isBlank b = true) (cs : List Char) :
    trim (cs ++ bs) = trim cs := by
  have hback (ds : List Char) : trimEnd (ds ++ bs) = trimEnd ds := by
    rw [trimEnd, trimEnd, List.reverse_append,
      List.dropWhile_append_of_pos fun b hb => h b (List.mem_reverse.mp hb)]
  cases hstart : trimStart cs with
  | nil =>
    have hblank : ∀ c ∈ cs, isBlank c = true := List.dropWhile_eq_nil_iff.mp hstart
    rw [trim_blanks_append hblank, trim_eq_nil_iff.mpr h, trim, hstart, trimEnd_nil]
  | cons c rest =>
    have hboth : trimStart (cs ++ bs) = trimStart cs ++ bs := by
      rw [trimStart, List.dropWhile_append, ← trimStart, hstart]
      rfl
    rw [trim, trim, hboth, hback]

/-- A text that starts and ends with characters that are not blank is trimmed already. -/
theorem trim_cons_concat {a b : Char} (ha : isBlank a = false) (hb : isBlank b = false)
    (cs : List Char) : trim (a :: (cs ++ [b])) = a :: (cs ++ [b]) := by
  rw [trim, trimStart_cons, if_neg (by simp [ha]), ← List.cons_append, trimEnd_append_singleton,
    if_neg (by simp [hb])]

end CommandShell.Text
