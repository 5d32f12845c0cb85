import CommandShell.Command.Segment
import CommandShell.Command.Token
import CommandShell.Proofs.Text.Trim
import Mathlib.Data.List.Basic

/-! # Cutting a line where separators count

A stretch of text is **unbroken** in a quoting state if no separator in it counts when it is read from
that state. Unbroken stretches pass through the cutter whole (`rawPieces_append`), so a line joined
from unbroken stretches that end outside quotes is cut back into them (`rawPieces_intercalate`). -/

namespace CommandShell

/-! ## Texts in front of a first piece -/

namespace Token

/-- Where no word was read yet, what is put in front is a word by itself. -/
@[simp] theorem extend_nil (cs : List Char) : extend cs [] = [cs] := rfl

/-- What is put in front becomes a part of the first word. -/
@[simp] theorem extend_cons (cs w : List Char) (ws : List (List Char)) :
    extend cs (w :: ws) = (cs ++ w) :: ws := rfl

/-- Putting two texts in front one after the other puts their concatenation in front. -/
theorem extend_extend (cs ds : List Char) (ws : List (List Char)) :
    extend cs (extend ds ws) = extend (cs ++ ds) ws := by
  cases ws with
  | nil => rfl
  | cons w ws => rw [extend_cons, extend_cons, extend_cons, List.append_assoc]

end Token

namespace Line

open Token

/-! ## Unbroken stretches -/

/-- No separator in a text counts when the text is read in state `q`. -/
def Unbroken : Scan → List Char → Prop
  | _, [] => True
  | q, c :: cs => ¬ (q = .plain ∧ c = separator) ∧ Unbroken (q.step c) cs

/-- There is no separator in the empty text. -/
@[simp] theorem unbroken_nil (q : Scan) : Unbroken q [] := trivial

/-- A text is unbroken if its first character is no separator that counts, and neither is any behind it.
-/
theorem unbroken_cons (q : Scan) (c : Char) (cs : List Char) :
    Unbroken q (c :: cs) ↔ ¬ (q = .plain ∧ c = separator) ∧ Unbroken (q.step c) cs := Iff.rfl

/-- A concatenation is unbroken iff both parts are, the second in the state that the first leaves. -/
theorem unbroken_append (q : Scan) (cs ds : List Char) :
    Unbroken q (cs ++ ds) ↔ Unbroken q cs ∧ Unbroken (q.after cs) ds := by
  induction cs generalizing q with
  | nil => simp
  | cons c cs ih =>
    rw [List.cons_append, unbroken_cons, unbroken_cons, ih, and_assoc, Scan.after_cons]

/-- A separator outside quotes starts a new piece. -/
theorem rawPieces_separator (cs : List Char) :
    rawPieces .plain (separator :: cs) = [] :: rawPieces .plain cs := by
  rw [rawPieces, if_pos ⟨rfl, rfl⟩]

/-- A character that does not separate belongs to the first piece. -/
theorem rawPieces_cons {q : Scan} {c : Char} (h : ¬ (q = .plain ∧ c = separator)) (cs : List Char) :
    rawPieces q (c :: cs) = extend [c] (rawPieces (q.step c) cs) := by
  rw [rawPieces, if_neg h]
  cases rawPieces (q.step c) cs with
  | nil => rfl
  | cons p ps => rfl

/-- **An unbroken stretch passes whole** into the first piece of what follows. -/
theorem rawPieces_append {q : Scan} {cs : List Char} (h : Unbroken q cs) (ds : List Char) :
    rawPieces q (cs ++ ds) = extend cs (rawPieces (q.after cs) ds) := by
  induction cs generalizing q with
  | nil =>
    -- There is always a first piece to put the stretch in front of.
    cases hp : rawPieces q ds with
    | nil => exact absurd hp (rawPieces_ne_nil q ds)
    | cons p ps => rw [List.nil_append, Scan.after_nil, hp, extend_cons, List.nil_append]
  | cons c cs ih =>
    obtain ⟨hc, hcs⟩ := (unbroken_cons q c cs).mp h
    rw [List.cons_append, rawPieces_cons hc, ih hcs, extend_extend, Scan.after_cons]
    rfl

/-- A text that is unbroken as a line and leaves no quote or escape open. -/
def Closed (cs : List Char) : Prop := Unbroken .plain cs ∧ Scan.plain.after cs = .plain

/-- Closed texts may be put together. -/
theorem closed_append {cs ds : List Char} (hc : Closed cs) (hd : Closed ds) : Closed (cs ++ ds) := by
  refine ⟨(unbroken_append _ _ _).mpr ⟨hc.1, ?_⟩, ?_⟩
  · rw [hc.2]
    exact hd.1
  · rw [Scan.after_append, hc.2, hd.2]

/-- A closed text is one piece. -/
theorem rawPieces_of_closed {cs : List Char} (h : Closed cs) : rawPieces .plain cs = [cs] := by
  have := rawPieces_append h.1 []
  rwa [List.append_nil, h.2, rawPieces_nil, extend_cons, List.append_nil] at this

/-- **Cutting undoes joining:** closed texts joined by separators are cut back into these texts. -/
theorem rawPieces_intercalate {pieces : List (List Char)} (hne : pieces ≠ [])
    (h : ∀ p ∈ pieces, Closed p) : rawPieces .plain (List.intercalate [separator] pieces) = pieces := by
  induction pieces with
  | nil => exact absurd rfl hne
  | cons p ps ih =>
    have hp : Closed p := h p List.mem_cons_self
    cases ps with
    | nil =>
      rw [List.intercalate_singleton]
      exact rawPieces_of_closed hp
    | cons p' ps =>
      rw [List.intercalate_cons_cons, List.append_assoc, List.singleton_append,
        rawPieces_append hp.1, hp.2, rawPieces_separator,
        ih (by simp) fun r hr => h r (List.mem_cons_of_mem _ hr), extend_cons, List.append_nil]

/-- The state of the scanner behind closed texts joined by separators is outside quotes. -/
theorem after_intercalate {pieces : List (List Char)} (h : ∀ p ∈ pieces, Closed p) :
    Scan.plain.after (List.intercalate [separator] pieces) = .plain := by
  induction pieces with
  | nil => rfl
  | cons p ps ih =>
    have hp : Closed p := h p List.mem_cons_self
    cases ps with
    | nil =>
      rw [List.intercalate_singleton]
      exact hp.2
    | cons p' ps =>
      rw [List.intercalate_cons_cons, Scan.after_append, Scan.after_append, hp.2]
      exact ih fun r hr => h r (List.mem_cons_of_mem _ hr)

/-- Closed texts that are trimmed and not empty, joined by separators, are the segments of the line. -/
theorem segments?_intercalate {pieces : List (List Char)} (hclosed : ∀ p ∈ pieces, Closed p)
    (htrim : ∀ p ∈ pieces, Text.trim p = p) (hne : ∀ p ∈ pieces, p ≠ []) :
    segments? (List.intercalate [separator] pieces) = some pieces := by
  rw [segments?, after_intercalate hclosed]
  cases pieces with
  | nil => rfl
  | cons p ps =>
    -- Trimming and dropping empty pieces change nothing.
    have hmap : (p :: ps).map Text.trim = p :: ps := by
      rw [List.map_congr_left htrim, List.map_id']
    have hfilter : (p :: ps).filter (fun s => !s.isEmpty) = p :: ps :=
      List.filter_eq_self.mpr fun s hs => by simp [hne s hs]
    rw [rawPieces_intercalate (by simp) hclosed, hmap, hfilter]
    rfl

end Line

end CommandShell
