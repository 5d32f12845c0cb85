import CommandShell.Proofs.Json.ReadBack
import CommandShell.Proofs.Text.Utf8
import CommandShell.Settings.Manager

/-! # What the settings file says

The text of a value holds no carriage return, so nothing is lost when the file is read with its line
ends made uniform: the file says what was written into it (`parse_encode`), and whatever it says can
be written into it again (`faithful_of_parse`). -/

namespace CommandShell

namespace Json

/-! ## No carriage returns -/

/-- A character of an intercalation is one of the separator or of a text. -/
theorem mem_intercalate {separator : String} {texts : List String} {c : Char}
    (h : c ∈ (separator.intercalate texts).toList) :
    c ∈ separator.toList ∨ ∃ t ∈ texts, c ∈ t.toList := by
  induction texts with
  | nil =>
    rw [String.intercalate_nil] at h
    cases h
  | cons t ts ih =>
    cases ts with
    | nil =>
      rw [String.intercalate_singleton] at h
      exact .inr ⟨t, List.mem_cons_self, h⟩
    | cons u us =>
      rw [String.intercalate_cons_cons, String.toList_append, String.toList_append,
        List.mem_append, List.mem_append] at h
      rcases h with (h | h) | h
      · exact .inr ⟨t, List.mem_cons_self, h⟩
      · exact .inl h
      · rcases ih h with h | ⟨v, hv, h⟩
        · exact .inl h
        · exact .inr ⟨v, List.mem_cons_of_mem _ hv, h⟩

/-- The escape of a unit has no carriage return. -/
theorem not_mem_unitEscape {n : Nat} (h : n ≤ 0xFFFF) : '\r' ∉ unitEscape n := by
  have hdigit : ∀ d < 16, '\r' ≠ Nat.digitChar d := by decide
  rw [unitEscape, hexadecimal_four h]
  simp only [List.mem_cons, List.not_mem_nil, or_false, not_or]
  exact ⟨by decide, by decide, hdigit _ (by omega), hdigit _ (by omega), hdigit _ (by omega),
    hdigit _ (by omega)⟩

/-- Neither has any written code point: the carriage return itself is escaped. -/
theorem not_mem_escapePoint (p : CodePoint) : '\r' ∉ escapePoint p := by
  cases p with
  | surrogate offset =>
    have := offset.isLt
    exact not_mem_unitEscape (show 0xD800 + offset.val ≤ 0xFFFF by omega)
  | char c =>
    have hv : c.toNat < 0xD800 ∨ 0xDFFF < c.toNat ∧ c.toNat < 0x110000 := c.valid
    -- A carriage return has an escape of its own, and is not printed otherwise.
    rw [escapePoint, escapeChar]
    split
    · rename_i hself
      rcases hself with rfl | rfl <;> decide
    split
    · decide
    split
    · decide
    rename_i hreturn
    split
    · decide
    split
    · decide
    split
    · decide
    split
    · exact fun h => hreturn (List.mem_singleton.mp h).symm
    split
    · rename_i hshort
      exact not_mem_unitEscape hshort
    · rw [List.mem_append, not_or]
      exact ⟨not_mem_unitEscape (by omega), not_mem_unitEscape (by omega)⟩

/-- Neither has a written string. -/
theorem not_mem_encodeString (s : RawText) : '\r' ∉ (encodeString s).toList := by
  rw [encodeString, String.toList_ofList, List.mem_append, List.mem_cons, List.mem_flatMap]
  rintro ((h | ⟨p, _, h⟩) | h)
  · cases h
  · exact not_mem_escapePoint p h
  · exact absurd (List.mem_singleton.mp h) (by decide)

/-- Neither has a line break. -/
theorem not_mem_lineBreak (level : Nat) : '\r' ∉ (lineBreak level).toList := by
  rw [lineBreak, String.toList_ofList, List.mem_cons]
  rintro (h | h)
  · cases h
  · exact absurd (List.eq_of_mem_replicate h) (by decide)

/-- Neither has a whole number. -/
theorem not_mem_toString_int (n : Int) : '\r' ∉ (toString n).toList := by
  rw [toList_toString_int, List.mem_append]
  rintro (h | h)
  · split at h
    · exact absurd (List.mem_singleton.mp h) (by decide)
    · cases h
  · have hdigit := Nat.isDigit_of_mem_toDigits (by omega) (by omega) h
    cases hdigit

/-- What is enclosed holds no carriage return if the enclosed texts do not. -/
theorem not_mem_enclosed {level : Nat} {close : Char} (hclose : '\r' ≠ close)
    {texts : List String} (h : ∀ t ∈ texts, '\r' ∉ t.toList) : '\r' ∉ enclosed level close texts := by
  rw [enclosed, List.mem_append, List.mem_append]
  rintro ((hmem | hmem) | hmem)
  · rcases mem_intercalate hmem with hmem | ⟨t, ht, hmem⟩
    · rw [String.toList_append, List.mem_append] at hmem
      rcases hmem with hmem | hmem
      · exact absurd hmem (by decide)
      · exact not_mem_lineBreak _ hmem
    · exact h t ht hmem
  · exact not_mem_lineBreak _ hmem
  · exact hclose (List.mem_singleton.mp hmem)

mutual

/-- The text of a value holds no carriage return. -/
theorem not_mem_encodeAt (level : Nat) : (j : Json) → '\r' ∉ (j.encodeAt level).toList
  | .null => by
    rw [encodeAt]
    decide
  | .bool true => by
    rw [encodeAt]
    decide
  | .bool false => by
    rw [encodeAt]
    decide
  | .int n => by
    rw [encodeAt]
    exact not_mem_toString_int n
  | .float x => by
    rw [encodeAt]
    intro h
    have hgap := isGap_floatText h
    cases hgap
  | .str s => by
    rw [encodeAt]
    exact not_mem_encodeString s
  | .arr [] => by
    rw [encodeAt]
    decide
  | .arr (j :: js) => by
    -- A bracket, a break of line, and the texts of the items.
    rw [toList_encodeAt_arr, List.mem_cons, List.mem_append]
    rintro (h | h | h)
    · cases h
    · exact not_mem_lineBreak _ h
    · refine not_mem_enclosed (by decide) ?_ h
      rw [← encodeAll_eq_map]
      exact not_mem_encodeAll (level + 1) (j :: js)
  | .obj [] => by
    rw [encodeAt]
    decide
  | .obj (m :: ms) => by
    rw [toList_encodeAt_obj, List.mem_cons, List.mem_append]
    rintro (h | h | h)
    · cases h
    · exact not_mem_lineBreak _ h
    · refine not_mem_enclosed (by decide) ?_ h
      rw [← encodeMembers_eq_map]
      exact not_mem_encodeMembers (level + 1) (m :: ms)

/-- Neither has any written item. -/
theorem not_mem_encodeAll (level : Nat) :
    (js : List Json) → ∀ t ∈ encodeAll level js, '\r' ∉ t.toList
  | [] => by
    intro t ht
    rw [encodeAll] at ht
    cases ht
  | j :: js => by
    intro t ht
    rw [encodeAll] at ht
    rcases List.mem_cons.mp ht with rfl | ht
    · exact not_mem_encodeAt level j
    · exact not_mem_encodeAll level js t ht

/-- Neither has any written member. -/
theorem not_mem_encodeMembers (level : Nat) :
    (ms : List (RawText × Json)) → ∀ t ∈ encodeMembers level ms, '\r' ∉ t.toList
  | [] => by
    intro t ht
    rw [encodeMembers] at ht
    cases ht
  | (k, j) :: ms => by
    intro t ht
    rw [encodeMembers] at ht
    rcases List.mem_cons.mp ht with rfl | ht
    · rw [String.toList_append, String.toList_append, List.mem_append, List.mem_append]
      rintro ((h | h) | h)
      · exact not_mem_encodeString k h
      · exact absurd h (by decide)
      · exact not_mem_encodeAt level j h
    · exact not_mem_encodeMembers level ms t ht

end

end Json

namespace SettingsFile

/-! ## Writing and reading the file -/

/-- A text without carriage returns is read with the line ends that it has. -/
theorem unixLines_of_not_mem {cs : List Char} (h : '\r' ∉ cs) : unixLines cs = cs := by
  induction cs with
  | nil => rw [unixLines]
  | cons c cs ih =>
    rw [List.mem_cons, not_or] at h
    rw [unixLines, ih h.2]
    · rintro rest rfl
      exact absurd rfl h.1
    · rintro rfl
      exact absurd rfl h.1

/-- **The file says what was written into it.** -/
theorem parse_encode {j : Json} (h : j.Faithful Json.maxDepth) :
    parse (Utf8.encode (j.encode ++ "\n").toList) = .ok (.ok j) := by
  have htext : (j.encode ++ "\n").toList = j.encode.toList ++ ['\n'] := String.toList_append
  have hreturn : '\r' ∉ j.encode.toList ++ ['\n'] := by
    rw [List.mem_append, not_or]
    exact ⟨Json.not_mem_encodeAt 0 j, by decide⟩
  have hread := Json.decodeChars_encode h (Json.stops_newline []) (List.forall_mem_singleton.mpr rfl)
  rw [htext, parse, Utf8.decode_encode]
  simp only [unixLines_of_not_mem hreturn, hread]

/-- **What the file says can be written into it again**, as far as the doubles in it read back. -/
theorem faithful_of_parse {data : List UInt8} {j : Json} (h : parse data = .ok (.ok j))
    (hdoubles : ∀ x ∈ j.doubles, Json.DoubleReadsBack x) : j.Faithful Json.maxDepth := by
  unfold parse at h
  split at h
  · cases h
  simp only at h
  split at h
  · rename_i hread
    cases h
    exact Json.faithful_of_decodeChars hread hdoubles
  · cases h
  · cases h
  · cases h

end SettingsFile

end CommandShell
