import CommandShell.Command.Argument
import Mathlib.Data.List.Basic

/-! # Values and parameters

Which tokens look like parameters is a matter of a small grammar (`Argument.isParameter_iff`): all that
start with a hyphen and have more behind it, but for negative numbers. Telling values and parameters apart
picks subsequences (`Argument.classify_eq`): the parameters from what stands in front of a bare `--`, the
values from the rest of that, followed by all that stands behind it. Nothing else is dropped
(`Argument.perm_values_parameters`). -/

namespace CommandShell.Argument

/-! ## Negative numbers -/

/-- A run of decimal digits, of any script. -/
def Digits (cs : List Char) : Prop := cs ≠ [] ∧ ∀ c ∈ cs, Text.isDigit c = true

/-- Digits, perhaps with a point and more digits behind them. -/
inductive Decimal : List Char → Prop
  | whole {ds : List Char} (h : Digits ds) : Decimal ds
  | fraction {ds es : List Char} (hds : Digits ds) (hes : Digits es) : Decimal (ds ++ '.' :: es)

/-- A hyphen and a decimal number, perhaps with one line feed behind it. -/
def NegativeNumber (cs : List Char) : Prop :=
  ∃ number final, Decimal number ∧ (final = [] ∨ final = ['\n']) ∧ cs = '-' :: (number ++ final)

/-- The check for digits is the definition of digits. -/
theorem isDigits_iff {cs : List Char} : isDigits cs = true ↔ Digits cs := by
  simp [isDigits, Digits]

/-- Behind the digits that a text starts with stands the rest of it. -/
theorem drop_digits (cs : List Char) :
    cs.drop (cs.takeWhile Text.isDigit).length = cs.dropWhile Text.isDigit := by
  have hboth := List.takeWhile_append_dropWhile (p := Text.isDigit) (l := cs)
  generalize List.takeWhile Text.isDigit cs = front, List.dropWhile Text.isDigit cs = rest at hboth
  rw [← hboth, List.drop_left]

/-- A text of digits and then no digit starts with these digits. -/
theorem takeWhile_digits {ds : List Char} (hds : Digits ds) (cs : List Char)
    (hcs : ∀ c ∈ cs.head?, Text.isDigit c = false) :
    (ds ++ cs).takeWhile Text.isDigit = ds ∧ (ds ++ cs).dropWhile Text.isDigit = cs := by
  rw [List.takeWhile_append_of_pos hds.2, List.dropWhile_append_of_pos hds.2]
  cases cs with
  | nil => simp
  | cons c cs => simp [hcs c rfl]

/-- **The test for decimal numbers** follows the grammar. -/
theorem isDecimal_iff {cs : List Char} : isDecimal cs = true ↔ Decimal cs := by
  have hpoint : Text.isDigit '.' = false := by decide
  unfold isDecimal
  simp only [drop_digits, Bool.and_eq_true, isDigits_iff]
  constructor
  · rintro ⟨hwhole, hrest⟩
    rw [← List.takeWhile_append_dropWhile (p := Text.isDigit) (l := cs)]
    split at hrest
    · rename_i hnil
      rw [hnil, List.append_nil]
      exact .whole hwhole
    · rename_i fraction hfraction
      rw [hfraction]
      exact .fraction hwhole (isDigits_iff.mp hrest)
    · cases hrest
  · intro h
    -- The digits in front end where the point stands, or nowhere.
    cases h with
    | whole hds =>
      obtain ⟨htake, hdrop⟩ := takeWhile_digits hds [] (by simp)
      rw [List.append_nil] at htake hdrop
      rw [htake, hdrop]
      exact ⟨hds, rfl⟩
    | @fraction ds es hds hes =>
      obtain ⟨htake, hdrop⟩ := takeWhile_digits hds ('.' :: es) (by simpa using hpoint)
      rw [htake, hdrop]
      exact ⟨hds, isDigits_iff.mpr hes⟩

/-- A decimal number ends in a digit, so it has no line feed at its end. -/
theorem Decimal.getLast?_ne {cs : List Char} (h : Decimal cs) : cs.getLast? ≠ some '\n' := by
  have hfeed : Text.isDigit '\n' = false := by decide
  have hdigits {ds : List Char} (hds : Digits ds) : ds.getLast? ≠ some '\n' := by
    intro hlast
    rw [hds.2 _ (List.mem_of_getLast? hlast)] at hfeed
    cases hfeed
  cases h with
  | whole hds => exact hdigits hds
  | @fraction ds es hds hes =>
    rw [List.getLast?_append_of_ne_nil _ (List.cons_ne_nil _ _), List.getLast?_cons_of_ne_nil hes.1]
    exact hdigits hes

/-- One line feed at the end is dropped, and nothing else. -/
theorem dropFinalNewline_eq_iff {cs ds : List Char} (hds : ds.getLast? ≠ some '\n') :
    dropFinalNewline cs = ds ↔ cs = ds ∨ cs = ds ++ ['\n'] := by
  constructor
  · intro h
    unfold dropFinalNewline at h
    split at h
    · rename_i hlast
      rw [← h]
      exact .inr (List.dropLast_append_getLast? _ hlast).symm
    · exact .inl h
  · rintro (rfl | rfl)
    · unfold dropFinalNewline
      split
      · rename_i hlast
        exact absurd hlast hds
      · rfl
    · simp [dropFinalNewline]

/-- **The test for negative numbers** follows the grammar. -/
theorem isNegativeNumber_iff {cs : List Char} : isNegativeNumber cs = true ↔ NegativeNumber cs := by
  constructor
  · intro h
    unfold isNegativeNumber at h
    split at h
    · rename_i number
      have hdecimal := isDecimal_iff.mp h
      obtain hsame | hfeed := (dropFinalNewline_eq_iff hdecimal.getLast?_ne).mp rfl
      · exact ⟨_, [], hdecimal, .inl rfl, by rw [List.append_nil, ← hsame]⟩
      · exact ⟨_, ['\n'], hdecimal, .inr rfl, by rw [← hfeed]⟩
    · cases h
  · rintro ⟨number, final, hnumber, hfinal, rfl⟩
    refine isDecimal_iff.mpr ?_
    rw [(dropFinalNewline_eq_iff hnumber.getLast?_ne).mpr ?_]
    · exact hnumber
    · rcases hfinal with rfl | rfl
      · exact .inl (List.append_nil _)
      · exact .inr rfl

/-! ## Parameters -/

/-- **What looks like a parameter**: a hyphen with something behind it, but no negative number. -/
theorem isParameter_iff {token : String} : isParameter token = true ↔
    token.toList.head? = some '-' ∧ 1 < token.toList.length ∧ ¬ NegativeNumber token.toList := by
  rw [← isNegativeNumber_iff]
  unfold isParameter
  split
  · rename_i c cs htoken
    simp [htoken]
  · rename_i hother
    refine iff_of_false (by simp) ?_
    rintro ⟨hhead, hlength, -⟩
    -- A hyphen with something behind it has the form that was excluded.
    obtain ⟨rest, hrest⟩ := List.head?_eq_some_iff.mp hhead
    rw [hrest] at hlength
    obtain ⟨c, cs, rfl⟩ := List.exists_cons_of_length_pos (by simpa using hlength : 0 < rest.length)
    exact hother c cs hrest

/-! ## Telling them apart -/

/-- What stands in front of the first bare `--`, all if there is none. -/
def beforeEnd (tokens : List String) : List String := tokens.takeWhile (· != endOfParameters)

/-- What stands behind the first bare `--`. -/
def afterEnd (tokens : List String) : List String := (tokens.dropWhile (· != endOfParameters)).drop 1

/-- A token that does not end the parameters stands in front of the end. -/
theorem beforeEnd_cons {t : String} (h : t ≠ endOfParameters) (ts : List String) :
    beforeEnd (t :: ts) = t :: beforeEnd ts := by
  simp [beforeEnd, h]

/-- A token that does not end the parameters is not behind the end. -/
theorem afterEnd_cons {t : String} (h : t ≠ endOfParameters) (ts : List String) :
    afterEnd (t :: ts) = afterEnd ts := by
  simp [afterEnd, h]

/-- Around the first bare `--` stand all other tokens. -/
theorem beforeEnd_append_afterEnd (tokens : List String) :
    beforeEnd tokens ++ afterEnd tokens = tokens.erase endOfParameters := by
  induction tokens with
  | nil => rfl
  | cons t ts ih =>
    by_cases hend : t = endOfParameters
    · simp [beforeEnd, afterEnd, hend]
    · rw [beforeEnd_cons hend, afterEnd_cons hend, List.erase_cons_tail (by simpa using hend),
        List.cons_append, ih]

/-- The values among tokens: what is no parameter, and all that stands behind the first bare `--`. -/
def values (tokens : List String) : List String :=
  (beforeEnd tokens).filter (fun t => !isParameter t) ++ afterEnd tokens

/-- The parameters among tokens, which stand in front of the first bare `--`. -/
def parameters (tokens : List String) : List String := (beforeEnd tokens).filter isParameter

/-- **Values and parameters** are subsequences of the tokens. -/
theorem classify_eq (tokens : List String) : classify tokens = (values tokens, parameters tokens) := by
  induction tokens with
  | nil => rfl
  | cons t ts ih =>
    rw [classify]
    by_cases hend : t = endOfParameters
    · simp [values, parameters, beforeEnd, afterEnd, hend]
    · rw [if_neg hend, ih]
      by_cases hparameter : isParameter t = true
      · simp [values, parameters, beforeEnd_cons hend, afterEnd_cons hend, hparameter]
      · simp [values, parameters, beforeEnd_cons hend, afterEnd_cons hend, hparameter]

/-- **No token is lost or comes twice**, but for the first bare `--`. -/
theorem perm_values_parameters (tokens : List String) :
    (values tokens ++ parameters tokens).Perm (tokens.erase endOfParameters) := by
  rw [← beforeEnd_append_afterEnd]
  have hswap : (afterEnd tokens ++ parameters tokens).Perm (parameters tokens ++ afterEnd tokens) :=
    List.perm_append_comm
  have hsplit : ((beforeEnd tokens).filter (fun t => !isParameter t) ++ parameters tokens).Perm
      (beforeEnd tokens) :=
    List.perm_append_comm.trans (List.filter_append_perm isParameter _)
  calc values tokens ++ parameters tokens
      = (beforeEnd tokens).filter (fun t => !isParameter t)
          ++ (afterEnd tokens ++ parameters tokens) := List.append_assoc _ _ _
    List.Perm _ ((beforeEnd tokens).filter (fun t => !isParameter t)
          ++ (parameters tokens ++ afterEnd tokens)) := hswap.append_left _
    _ = ((beforeEnd tokens).filter (fun t => !isParameter t) ++ parameters tokens)
          ++ afterEnd tokens := (List.append_assoc _ _ _).symm
    List.Perm _ (beforeEnd tokens ++ afterEnd tokens) := hsplit.append_right _

end CommandShell.Argument
