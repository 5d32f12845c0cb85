import CommandShell.Command.Segment
import CommandShell.Command.Token
import CommandShell.Proofs.Text.Trim
import Mathlib.Data.List.Basic

/-! # Two readers of quotes

The scanner that cuts a line and the reader of tokens are separate machines. This file says that they
read quotes alike.

* `Quoted.Whole`: the texts in which every quote is closed and every backslash has its character, by
  a grammar and without a machine.
* `Scan.after_eq_plain_iff`: the scanner is outside quotes exactly behind such a text.
* `Token.fault?_scan`: the reader of tokens ends with the fault that the state of the scanner tells.
* `Line.tokens_of_segments`: what this means for a line and for its segments. -/

namespace CommandShell

/-! ## Quotes by grammar -/

namespace Quoted

/-- A text that may stand between double quotes: a quote stands behind a backslash only, and every
backslash has a character behind it. -/
inductive Inside : List Char → Prop
  | nil : Inside []
  | plain {c : Char} {cs : List Char} (hquote : c ≠ '"') (hslash : c ≠ '\\') (h : Inside cs) :
      Inside (c :: cs)
  | escaped (c : Char) {cs : List Char} (h : Inside cs) : Inside ('\\' :: c :: cs)

/-- A text in which every quote is closed and every backslash outside single quotes has a character
behind it. -/
inductive Whole : List Char → Prop
  | nil : Whole []
  | plain {c : Char} {cs : List Char} (hslash : c ≠ '\\') (hsingle : c ≠ '\'') (hdouble : c ≠ '"')
      (h : Whole cs) : Whole (c :: cs)
  | escaped (c : Char) {cs : List Char} (h : Whole cs) : Whole ('\\' :: c :: cs)
  | single {body cs : List Char} (hbody : '\'' ∉ body) (h : Whole cs) :
      Whole ('\'' :: (body ++ '\'' :: cs))
  | double {body cs : List Char} (hbody : Inside body) (h : Whole cs) :
      Whole ('"' :: (body ++ '"' :: cs))

/-- A text ends in a backslash that is outside quotes and not itself escaped. -/
def EndsBare (cs : List Char) : Prop := ∃ front, Whole front ∧ cs = front ++ ['\\']

end Quoted

/-! ## The scanner follows the grammar -/

namespace Scan

open Quoted

/-- What is left to read in a state until all quotes are closed. -/
def Closes : Scan → List Char → Prop
  | plain, cs => Whole cs
  | escaped, cs => ∃ c rest, cs = c :: rest ∧ Whole rest
  | single, cs => ∃ body rest, cs = body ++ '\'' :: rest ∧ '\'' ∉ body ∧ Whole rest
  | double, cs => ∃ body rest, cs = body ++ '"' :: rest ∧ Inside body ∧ Whole rest
  | doubleEscaped, cs =>
    ∃ c body rest, cs = c :: (body ++ '"' :: rest) ∧ Inside body ∧ Whole rest

/-- One character in front of a text that closes all quotes. -/
theorem Closes.cons {q : Scan} {c : Char} {cs : List Char} (h : (q.step c).Closes cs) :
    q.Closes (c :: cs) := by
  cases q with
  | plain =>
    simp only [step] at h
    split at h
    · -- A backslash stands before the character that it protects.
      rename_i hc
      subst hc
      obtain ⟨d, rest, rfl, hrest⟩ := h
      exact .escaped d hrest
    · rename_i hslash
      split at h
      · rename_i hc
        subst hc
        obtain ⟨body, rest, rfl, hbody, hrest⟩ := h
        exact .single hbody hrest
      · rename_i hsingle
        split at h
        · rename_i hc
          subst hc
          obtain ⟨body, rest, rfl, hbody, hrest⟩ := h
          exact .double hbody hrest
        · rename_i hdouble
          exact .plain hslash hsingle hdouble h
  | escaped => exact ⟨c, cs, rfl, h⟩
  | single =>
    simp only [step] at h
    split at h
    · rename_i hc
      subst hc
      exact ⟨[], cs, rfl, by simp, h⟩
    · rename_i hc
      obtain ⟨body, rest, rfl, hbody, hrest⟩ := h
      exact ⟨c :: body, rest, rfl, by simp [hbody, Ne.symm hc], hrest⟩
  | double =>
    simp only [step] at h
    split at h
    · rename_i hc
      subst hc
      obtain ⟨d, body, rest, rfl, hbody, hrest⟩ := h
      exact ⟨'\\' :: d :: body, rest, rfl, .escaped d hbody, hrest⟩
    · rename_i hslash
      split at h
      · rename_i hc
        subst hc
        exact ⟨[], cs, rfl, .nil, h⟩
      · rename_i hquote
        obtain ⟨body, rest, rfl, hbody, hrest⟩ := h
        exact ⟨c :: body, rest, rfl, .plain hquote hslash hbody, hrest⟩
  | doubleEscaped =>
    obtain ⟨body, rest, rfl, hbody, hrest⟩ := h
    exact ⟨c, body, rest, rfl, hbody, hrest⟩

/-- A text that brings the scanner back outside quotes closes whatever was open. -/
theorem closes_of_after {q : Scan} {cs : List Char} (h : q.after cs = plain) : q.Closes cs := by
  induction cs generalizing q with
  | nil =>
    obtain rfl : q = plain := h
    exact .nil
  | cons c cs ih => exact .cons (ih h)

/-- Inside single quotes only a single quote ends the state. -/
theorem after_single {body : List Char} (h : '\'' ∉ body) : single.after body = single := by
  induction body with
  | nil => rfl
  | cons c body ih =>
    rw [List.mem_cons, not_or] at h
    simp [step, Ne.symm h.1, ih h.2]

/-- A text that may stand inside double quotes leaves them open. -/
theorem after_double {body : List Char} (h : Inside body) : double.after body = double := by
  induction h with
  | nil => rfl
  | plain hquote hslash _ ih => simp [step, hquote, hslash, ih]
  | escaped c _ ih => simp [step, ih]

/-- **The scanner is outside quotes** exactly behind a text that closes its quotes and escapes. -/
theorem after_eq_plain_iff (cs : List Char) : plain.after cs = plain ↔ Whole cs := by
  refine ⟨closes_of_after, fun h => ?_⟩
  induction h with
  | nil => rfl
  | plain hslash hsingle hdouble _ ih => simp [step, hslash, hsingle, hdouble, ih]
  | escaped c _ ih => simp [step, ih]
  | single hbody _ ih => simp [step, after_single hbody, ih]
  | double hbody _ ih => simp [step, after_double hbody, ih]

/-- The scanner is behind a backslash outside quotes exactly at the end of a text that ends in one. -/
theorem after_eq_escaped_iff (cs : List Char) : plain.after cs = escaped ↔ EndsBare cs := by
  constructor
  · intro h
    -- The last step leads here from outside quotes only, and by a backslash.
    rcases List.eq_nil_or_concat' cs with rfl | ⟨front, c, rfl⟩
    · exact nomatch h
    · rw [after_append, after_cons, after_nil] at h
      have hstep (q : Scan) (hq : q.step c = escaped) : q = plain ∧ c = '\\' := by
        cases q <;> simp only [step] at hq <;> grind
      obtain ⟨hfront, rfl⟩ := hstep _ h
      exact ⟨front, (after_eq_plain_iff front).mp hfront, rfl⟩
  · rintro ⟨front, hfront, rfl⟩
    rw [after_append, (after_eq_plain_iff front).mpr hfront]
    rfl

/-! ## Blanks at the ends -/

/-- A blank leaves the scanner outside quotes, and closes no quote that is open. -/
theorem step_blank {c : Char} (h : Text.isBlank c = true) :
    plain.step c = plain ∧ ∀ q : Scan, q.isOpen = true → (q.step c).isOpen = true := by
  have hslash : c ≠ '\\' := by rintro rfl; exact absurd h (by decide)
  have hsingle : c ≠ '\'' := by rintro rfl; exact absurd h (by decide)
  have hdouble : c ≠ '"' := by rintro rfl; exact absurd h (by decide)
  refine ⟨by simp [step, hslash, hsingle, hdouble], fun q hq => ?_⟩
  cases q <;> simp_all [step, isOpen]

/-- Blanks leave the scanner outside quotes, and never close a quote. -/
theorem after_blanks {cs : List Char} (h : ∀ c ∈ cs, Text.isBlank c = true) :
    plain.after cs = plain ∧ ∀ q : Scan, q.isOpen = true → (q.after cs).isOpen = true := by
  induction cs with
  | nil => exact ⟨rfl, fun q hq => hq⟩
  | cons c cs ih =>
    have hc := step_blank (h c List.mem_cons_self)
    have hcs := ih fun d hd => h d (List.mem_cons_of_mem _ hd)
    refine ⟨?_, fun q hq => ?_⟩
    · rw [after_cons, hc.1, hcs.1]
    · exact hcs.2 _ (hc.2 q hq)

end Scan

/-- Trimming opens no quote. -/
theorem Scan.isOpen_after_trim {cs : List Char} (h : (Scan.plain.after cs).isOpen = false) :
    (Scan.plain.after (Text.trim cs)).isOpen = false := by
  have hleading := after_blanks fun c (hc : c ∈ Text.leading cs) => Text.isBlank_of_mem_leading hc
  have htrailing := after_blanks fun c (hc : c ∈ Text.trailing cs) => Text.isBlank_of_mem_trailing hc
  rw [← Text.leading_trim_trailing cs, after_append, after_append, hleading.1] at h
  cases hopen : (plain.after (Text.trim cs)).isOpen with
  | false => rfl
  | true =>
    rw [htrailing.2 _ hopen] at h
    exact nomatch h

/-! ## The reader of tokens -/

namespace Token

/-- The fault that a reading ends with. -/
def fault? {α : Type} : Except Fault α → Option Fault
  | .ok _ => none
  | .error f => some f

/-- What is made of the words of a reading does not change the fault it ends with. -/
@[simp] theorem fault?_map {α β : Type} (f : α → β) (r : Except Fault α) :
    fault? (r.map f) = fault? r := by
  cases r <;> rfl

/-- The fault of a reading is the one it ends with. -/
theorem fault?_eq_some_iff {α : Type} {r : Except Fault α} {f : Fault} :
    fault? r = some f ↔ r = .error f := by
  cases r <;> simp [fault?]

/-- The quoting state that a mode of the reader stands for. Between words and inside a word the reader
is outside quotes. -/
def Mode.quoting : Mode → Scan
  | between => .plain
  | word => .plain
  | single => .single
  | double => .double
  | escape => .escaped
  | doubleEscape => .doubleEscaped

end Token

/-- What is wrong with a text that ends in a quoting state: a quote is open, or nothing stands behind a
backslash. -/
def Scan.fault? : Scan → Option Token.Fault
  | plain => none
  | escaped => some .danglingEscape
  | single => some .openQuote
  | double => some .openQuote
  | doubleEscaped => some .danglingEscape

namespace Token

/-- Outside quotes it makes no difference for the fault whether a word has begun. -/
theorem fault?_scan_outside {m : Mode} (hm : m.quoting = .plain) (c : Char) (cs : List Char) :
    fault? (scan m (c :: cs)) = fault? (
      if isGap c then scan .between cs
      else if c = '\\' then scan .escape cs
      else if c = '\'' then scan .single cs
      else if c = '"' then scan .double cs
      else scan .word cs) := by
  cases m with
  | between =>
    rw [scan]
    split
    · rfl
    · repeat' split
      all_goals simp
  | word =>
    rw [scan]
    split
    · simp
    · repeat' split
      all_goals simp
  | _ => exact nomatch hm

/-- **The reader ends with the fault of the quoting state** in which the scanner ends. -/
theorem fault?_scan (m : Mode) (cs : List Char) :
    fault? (scan m cs) = (m.quoting.after cs).fault? := by
  -- By induction on the text: each step of the reader is the step of the scanner.
  induction cs generalizing m with
  | nil => cases m <;> rfl
  | cons c cs ih =>
    have houtside (hm : m.quoting = .plain) :
        fault? (scan m (c :: cs)) = ((Scan.plain.step c).after cs).fault? := by
      rw [fault?_scan_outside hm]
      split
      · -- A gap is no mark of quoting.
        rename_i hgap
        have hstep : Scan.plain.step c = .plain := by
          simp only [isGap, Bool.or_eq_true, beq_iff_eq] at hgap
          rcases hgap with ((rfl | rfl) | rfl) | rfl <;> rfl
        rw [hstep]
        exact ih .between
      · simp only [Scan.step]
        split
        · exact ih .escape
        · split
          · exact ih .single
          · split
            · exact ih .double
            · exact ih .word
    rw [Scan.after_cons]
    cases m with
    | between => exact houtside rfl
    | word => exact houtside rfl
    | single =>
      rw [scan]
      simp only [Mode.quoting, Scan.step]
      split
      · exact ih .word
      · rw [fault?_map]
        exact ih .single
    | double =>
      rw [scan]
      simp only [Mode.quoting, Scan.step]
      -- The two machines ask for the quote and for the backslash in a different order.
      by_cases hquote : c = '"'
      · subst hquote
        exact ih .word
      · rw [if_neg hquote, if_neg hquote]
        split
        · exact ih .doubleEscape
        · rw [fault?_map]
          exact ih .double
    | escape =>
      rw [scan, fault?_map]
      exact ih .word
    | doubleEscape =>
      rw [scan]
      split
      · rw [fault?_map]
        exact ih .double
      · rw [fault?_map]
        exact ih .double

/-- A text that leaves no quote open has tokens, unless it ends in a bare backslash. -/
theorem fault?_ofChars {cs : List Char} (h : (Scan.plain.after cs).isOpen = false) :
    fault? (ofChars cs) ≠ some .openQuote ∧
      (fault? (ofChars cs) = some .danglingEscape ↔ Quoted.EndsBare cs) := by
  have hfault : fault? (ofChars cs) = (Scan.plain.after cs).fault? := fault?_scan .between cs
  rw [hfault, ← Scan.after_eq_escaped_iff]
  cases hafter : Scan.plain.after cs <;> simp_all [Scan.fault?, Scan.isOpen]

end Token

/-! ## Lines and segments -/

namespace Line

/-- Every piece of a line ends outside quotes, or as the whole line does. -/
theorem after_of_mem_rawPieces (q : Scan) (cs : List Char) :
    ∃ p ps, rawPieces q cs = p :: ps ∧ (q.after p = .plain ∨ q.after p = q.after cs) ∧
      ∀ p' ∈ ps, Scan.plain.after p' = .plain ∨ Scan.plain.after p' = q.after cs := by
  induction cs generalizing q with
  | nil => exact ⟨[], [], rfl, .inr rfl, by simp⟩
  | cons c cs ih =>
    rw [rawPieces]
    split
    · -- A separator that counts ends a piece outside quotes.
      rename_i h
      obtain ⟨rfl, rfl⟩ := h
      obtain ⟨p, ps, hpieces, hp, hps⟩ := ih .plain
      refine ⟨[], p :: ps, by rw [hpieces], .inl rfl, fun p' hp' => ?_⟩
      rcases List.mem_cons.mp hp' with rfl | hp'
      · exact hp
      · exact hps p' hp'
    · obtain ⟨p, ps, hpieces, hp, hps⟩ := ih (q.step c)
      exact ⟨c :: p, ps, by rw [hpieces], hp, hps⟩

/-- The segments of a line leave no quote open. -/
theorem isOpen_of_mem_segments {line : List Char} {ss : List (List Char)}
    (h : segments? line = some ss) {s : List Char} (hs : s ∈ ss) :
    (Scan.plain.after s).isOpen = false := by
  have hopen : (Scan.plain.after line).isOpen = false := (segments?_eq_some_iff.mp h).1
  obtain ⟨p, hp, rfl, -⟩ := mem_segments h hs
  apply Scan.isOpen_after_trim
  obtain ⟨p₀, ps, hpieces, hp₀, hps⟩ := after_of_mem_rawPieces .plain line
  have hend : Scan.plain.after p = .plain ∨ Scan.plain.after p = Scan.plain.after line := by
    rw [hpieces] at hp
    rcases List.mem_cons.mp hp with rfl | hp
    · exact hp₀
    · exact hps p hp
  rcases hend with hend | hend
  · rw [hend]
    rfl
  · rw [hend, hopen]

/-- **The two readers of quotes agree.** A line that has no segments has no tokens. Of a line that has
segments neither the line nor a segment leaves a quote open to the reader of tokens; and the reader
misses an escaped character exactly where the text ends in a backslash outside quotes that is not
itself escaped. -/
theorem tokens_of_segments (line : List Char) :
    (segments? line = none → ∃ f, Token.ofChars line = .error f) ∧
      ∀ ss, segments? line = some ss → ∀ text ∈ line :: ss,
        (∀ f, Token.ofChars text = .error f → f.message ≠ "No closing quotation") ∧
          ((∃ f, Token.ofChars text = .error f ∧ f.message = "No escaped character")
            ↔ Quoted.EndsBare text) := by
  constructor
  · intro h
    have hopen := (segments?_eq_none_iff line).mp h
    have hfault : Token.fault? (Token.ofChars line) = (Scan.plain.after line).fault? :=
      Token.fault?_scan .between line
    cases hline : Token.ofChars line with
    | error f => exact ⟨f, rfl⟩
    | ok ws =>
      -- A reading without a fault ends outside quotes.
      rw [hline] at hfault
      cases hafter : Scan.plain.after line <;>
        simp_all [Token.fault?, Scan.fault?, Scan.isOpen]
  · intro ss hss text htext
    have hopen : (Scan.plain.after text).isOpen = false := by
      rcases List.mem_cons.mp htext with rfl | hs
      · rw [Bool.eq_false_iff]
        intro hopen
        rw [(segments?_eq_none_iff text).mpr hopen] at hss
        cases hss
      · exact isOpen_of_mem_segments hss hs
    obtain ⟨hquote, hescape⟩ := Token.fault?_ofChars hopen
    constructor
    · intro f hf hmessage
      cases f with
      | openQuote => exact hquote (Token.fault?_eq_some_iff.mpr hf)
      | danglingEscape => exact absurd hmessage (by decide)
    · rw [← hescape, Token.fault?_eq_some_iff]
      constructor
      · rintro ⟨f, hf, hmessage⟩
        cases f with
        | openQuote => exact absurd hmessage (by decide)
        | danglingEscape => exact hf
      · exact fun h => ⟨_, h, rfl⟩

/-- A segment may end in a bare backslash although its piece does not: trimming takes away the blank
that the backslash protects. -/
theorem tokens_of_segments_escaped_blank :
    segments? "a\\ ; 'b'".toList = some ["a\\".toList, "'b'".toList] ∧
      (∀ f, Token.ofChars "a\\".toList = .error f → f.message ≠ "No closing quotation") ∧
      ((∃ f, Token.ofChars "a\\".toList = .error f ∧ f.message = "No escaped character")
        ↔ Quoted.EndsBare "a\\".toList) := by
  have hsegments : segments? "a\\ ; 'b'".toList = some ["a\\".toList, "'b'".toList] := by decide
  exact ⟨hsegments, (tokens_of_segments "a\\ ; 'b'".toList).2 _ hsegments _
    (List.mem_cons_of_mem _ List.mem_cons_self)⟩

end Line

end CommandShell
